import SavedState.FileTree

/-!
A sink that keeps each helper in a file of its own below one directory: the directories are the
segments of the package, the file has the name of the helper class. Files of earlier runs are
written anew, but no file is created twice in one run. A file that has been created stays so, even
if the bytes of its helper are refused later on.
-/

namespace SavedState

/-- An open directory for helpers. -/
structure OutputDirectory where
  /-- The path that it was opened by. -/
  path : String
  place : Place
deriving DecidableEq, Repr

/-- The files below an output directory, and which of them have been created: the path of each,
and the artifact that it holds. -/
structure Output where
  tree : FileTree
  created : List (String × String)

namespace Output

/-- Does something to the files alone. -/
def onTree {α : Type} (act : Act FileTree α) : Act Output α :=
  ExceptT.mk fun o =>
    let (result, tree) := act.run.run o.tree
    (result, { o with tree })

def owner? (o : Output) (path : String) : Option String :=
  (o.created.find? fun e => FilePath.same e.1 path).map (·.2)

end Output

namespace OutputDirectory

/-- Opens a directory, which is made first if nothing is there. -/
def openAt (b : Base) (path : String) : Act FileTree OutputDirectory := do
  match (← get).openDirectory b path with
  | .ok place => return ⟨path, place⟩
  | .error e =>
    if e.kind = .notFound then
      FileTree.ensureDirectories b path
      return ⟨path, ← liftExcept ((← get).openDirectory b path)⟩
    else throw e

/-- Where the helper of a declaring type goes, seen from the output directory. -/
def relativePath (helper : HelperName) (d : DeclaringType) : String :=
  let package := (Text.segments d.package).filter fun s => s ≠ ""
  FilePath.join (package.foldl FilePath.join "") (helper.className ++ ".java")

def base (o : OutputDirectory) : Base := ⟨o.place, true⟩

/-- Why a path cannot be used again. -/
def refusal (path artifact owner : String) : IoError :=
  ⟨.alreadyExists,
    if owner = artifact then path ++ " was already generated in this run"
    else path ++ " is already used by " ++ owner⟩

def channel (m : Medium) (place : Place) : Channel Output :=
  ⟨fun bytes => Output.onTree (m.write place bytes), Output.onTree (m.flush place)⟩

def create (o : OutputDirectory) (m : Medium) (helper : HelperName) (d : DeclaringType) :
    Act Output (Channel Output) := do
  let path := relativePath helper d
  match (← get).owner? path with
  | some owner => throw (refusal (FilePath.join o.path path) helper.artifact owner)
  | none =>
    match FilePath.parent? path with
    | none => pure ()
    | some up => if up ≠ "" then Output.onTree (FileTree.ensureDirectories o.base up)
    let place ← Output.onTree (FileTree.openEmpty o.base path)
    modify fun output => { output with created := output.created ++ [(path, helper.artifact)] }
    return channel m place

/-- The sink for a directory whose files take bytes as told. -/
def sink (o : OutputDirectory) (m : Medium := .willing) : Sink Output := ⟨o.create m⟩

end OutputDirectory

end SavedState
