import SavedState.FilePath
import SavedState.Sink.Basic
import SavedState.Text.Utf8

/-!
Directories and files, and what can be done to them by path. Trees have no links. Nobody is denied
a directory or a file by permissions, and there is always room for another one; what stands in the
way is told by the names alone. Whether a file takes the bytes that are written to it is left open.
-/

namespace SavedState

namespace IoError

def notFound : IoError := ⟨.notFound, "No such file or directory (os error 2)"⟩

def fileExists : IoError := ⟨.alreadyExists, "File exists (os error 17)"⟩

def notADirectory : IoError := ⟨.notADirectory, "Not a directory (os error 20)"⟩

def isADirectory : IoError := ⟨.isADirectory, "Is a directory (os error 21)"⟩

def nameTooLong : IoError := ⟨.invalidFilename, "File name too long (os error 36)"⟩

def ledOutside : IoError := ⟨.permissionDenied, "a path led outside of the filesystem"⟩

def notText : IoError := ⟨.invalidData, "stream did not contain valid UTF-8"⟩

end IoError

/-- The names that lead from the top to a file or directory. -/
abbrev Place := List String

inductive FileEntry where
  | directory
  | file (bytes : List UInt8)
deriving DecidableEq

/-- What stands at each place below the top. -/
abbrev FileTree := List (Place × FileEntry)

/-- The directory that paths start at. A confined one gives access to nothing outside. -/
structure Base where
  place : Place
  isConfined : Bool
deriving DecidableEq, Repr

/-- A NUL cannot stand in a path. -/
def Base.nulRefusal (b : Base) : IoError :=
  ⟨.invalidInput,
    if b.isConfined then "Invalid argument (os error 22)"
    else "file name contained an unexpected NUL byte"⟩

namespace FileTree

def get? (t : FileTree) (place : Place) : Option FileEntry :=
  if place = [] then some .directory else t.lookup place

/-- Sets what stands at a place; a new place goes to the end. -/
def put (place : Place) (entry : FileEntry) : FileTree → FileTree
  | [] => [(place, entry)]
  | e :: t => if e.1 = place then (place, entry) :: t else e :: put place entry t

/-- How many bytes a name may have. -/
def maxName : Nat := 255

/-- What a name stands for in a directory. -/
def find (t : FileTree) (b : Base) (place : Place) (name : String) :
    Except IoError (Option FileEntry) :=
  if '\x00' ∈ name.toList then .error b.nulRefusal
  else if maxName < Text.byteLength name.toList then .error .nameTooLong
  else .ok (t.get? (place ++ [name]))

/-- One step from a directory to another. -/
def step (t : FileTree) (b : Base) (place : Place) (name : String) : Except IoError Place :=
  if name = "" ∨ name = "." then .ok place
  else if name = ".." then
    if b.isConfined ∧ place = b.place then .error .ledOutside else .ok place.dropLast
  else do
    match ← t.find b place name with
    | none => .error .notFound
    | some (.file _) => .error .notADirectory
    | some .directory => .ok (place ++ [name])

/-- How many bytes a path may have. -/
def maxPath : Nat := 4095

/-- A path that can be followed at all. -/
def permit (b : Base) (path : String) : Except IoError Unit :=
  if '\x00' ∈ path.toList then .error b.nulRefusal
  else if maxPath < Text.byteLength path.toList then .error .nameTooLong
  else .ok ()

def start (b : Base) (path : String) : Except IoError Place :=
  if FilePath.isAbsolute path then if b.isConfined then .error .ledOutside else .ok []
  else .ok b.place

/-- The place of the directory that a path leads to; no path at all leads nowhere else. -/
def walk (t : FileTree) (b : Base) (path : String) : Except IoError Place := do
  (FilePath.parts path).foldlM (t.step b) (← start b path)

def openDirectory (t : FileTree) (b : Base) (path : String) : Except IoError Place :=
  if path = "" then .error .notFound
  else do
    permit b path
    t.walk b path

def holdsDirectory (t : FileTree) (b : Base) (path : String) : Bool :=
  (t.openDirectory b path).toOption.isSome

/-- Whether a last name leads no further than the directory it stands in, or out of it. -/
def isDots (name : String) : Bool := name == "" || name == "." || name == ".."

/-- The bytes of the file with some name in a directory. -/
def read (t : FileTree) (b : Base) (place : Place) (name : String) :
    Except IoError (List UInt8) := do
  match ← t.find b place name with
  | none => .error .notFound
  | some .directory => .error .isADirectory
  | some (.file bytes) => .ok bytes

def readText (t : FileTree) (b : Base) (place : Place) (name : String) : Except IoError String := do
  match Text.ofBytes? (← t.read b place name) with
  | some text => .ok text
  | none => .error .notText

/-- The bytes of the file at a path, if there is one. -/
def file? (t : FileTree) (b : Base) (path : String) : Option (List UInt8) :=
  let (up, name) := FilePath.cutLast path
  if isDots name ∨ path.toList.getLast? = some '/' then none
  else
    (do
      permit b path
      t.read b (← t.walk b up) name).toOption

/-- Makes a directory in one that is there. -/
def makeDirectory (b : Base) (path : String) : Act FileTree Unit := do
  let t ← get
  let (up, name) := FilePath.cutLast path
  liftExcept (permit b (if isDots name then path else (FilePath.parent? path).getD ""))
  let place ← liftExcept (t.walk b (if isDots name then path else up))
  if isDots name then throw IoError.fileExists
  match ← liftExcept (t.find b place name) with
  | some _ => throw IoError.fileExists
  | none => set (t.put (place ++ [name]) .directory)

/-- Makes a directory in one that is there, unless it is there itself. -/
def ensureDirectory (b : Base) (path : String) : Act FileTree Unit :=
  tryCatch (makeDirectory b path) fun e => do
    if (← get).holdsDirectory b path then return () else throw e

/-- Makes the first directory of a list in which each stands in the next; what is not there to
stand in is made first. -/
def ensureChain (b : Base) : List String → Act FileTree Unit
  | [] => return ()
  | path :: above =>
    if path = "" then return ()
    else
      tryCatch (ensureDirectory b path) fun e => do
        if e.kind = .notFound then
          ensureChain b above
          ensureDirectory b path
        else throw e

/-- Makes a directory with all that it stands in. What has been made stays, also where something
further on is in the way. -/
def ensureDirectories (b : Base) (path : String) : Act FileTree Unit :=
  ensureChain b (path :: FilePath.above path)

/-- Makes a file or empties it. -/
def openEmpty (b : Base) (path : String) : Act FileTree Place := do
  liftExcept (permit b path)
  let t ← get
  let (up, name) := FilePath.cutLast path
  let place ← liftExcept (t.walk b up)
  if isDots name then throw IoError.isADirectory
  match ← liftExcept (t.find b place name) with
  | some .directory => throw IoError.isADirectory
  | _ => set (t.put (place ++ [name]) (.file []))
  return place ++ [name]

/-- The bytes of the file at a place. -/
def bytesAt (t : FileTree) (place : Place) : List UInt8 :=
  match t.get? place with
  | some (.file bytes) => bytes
  | _ => []

end FileTree

/-- Why a file refuses bytes, and how many of all that it has been given stay in it. -/
structure Refusal where
  kept : Nat
  error : IoError
deriving DecidableEq, Repr

/-- How the files take the bytes that are written to them. A refusal goes by the place of a file,
by what it holds, and by what is to be added. Bytes may be held back for a while, and so a refusal
may come as late as with the flush, and may also concern bytes that have been taken before. -/
structure Medium where
  onWrite : Place → List UInt8 → List UInt8 → Option Refusal
  onFlush : Place → List UInt8 → Option Refusal

namespace Medium

/-- Files that take all bytes. -/
def willing : Medium := ⟨fun _ _ _ => none, fun _ _ => none⟩

/-- What comes of giving bytes to a file, and what it holds then. -/
def taken (bytes : List UInt8) : Option Refusal → Except IoError Unit × List UInt8
  | none => (.ok (), bytes)
  | some r => (.error r.error, bytes.take r.kept)

/-- Leaves in a file what it takes. -/
def leave (place : Place) (bytes : List UInt8) (refusal : Option Refusal) : Act FileTree Unit := do
  let (result, left) := taken bytes refusal
  modify (FileTree.put place (.file left))
  liftExcept result

/-- Adds bytes to the end of a file. -/
def write (m : Medium) (place : Place) (bytes : List UInt8) : Act FileTree Unit := do
  let held := (← get).bytesAt place
  leave place (held ++ bytes) (m.onWrite place held bytes)

def flush (m : Medium) (place : Place) : Act FileTree Unit := do
  let held := (← get).bytesAt place
  leave place held (m.onFlush place held)

end Medium

end SavedState
