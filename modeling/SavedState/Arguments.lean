import SavedState.Settings
import SavedState.Text.Segments

/-!
The command line of the generator.

Words are taken from left to right. A value that stands in a word of its own after its option is
held back and only taken in when the next option, switch or manifest comes, or the end; so what
is wrong with it goes unnoticed if an unknown option comes first.
-/

namespace SavedState

structure Arguments where
  config : Option String
  outDir : Option String
  suffix : Option String
  reemit : Option ReemitPolicy
  dryRun : Bool
  verbose : Bool
  manifests : List String
deriving DecidableEq, Repr

inductive ArgumentError where
  | unknownArgument
  /-- An option without a value. -/
  | missingValue
  /-- A value that is no re-emit policy. -/
  | badValue
  /-- An option or switch that is given twice. -/
  | repeated
  /-- A switch with a value. -/
  | unwantedValue
  | missingManifest
  | helpWanted
  | versionWanted
deriving DecidableEq, Repr

namespace Arguments

def none : Arguments := ⟨.none, .none, .none, .none, false, false, []⟩

inductive Opt where
  | config
  | outDir
  | suffix
  | reemit
deriving DecidableEq, Repr

inductive Switch where
  | dryRun
  | verbose
  | help
  | version
deriving DecidableEq, Repr

def Opt.named? (name : String) : Option Opt :=
  [("config", config), ("out-dir", outDir), ("suffix", suffix), ("reemit", reemit)].lookup name

def Switch.named? (name : String) : Option Switch :=
  [("dry-run", dryRun), ("verbose", verbose), ("help", help), ("version", version)].lookup name

def Switch.lettered? (c : Char) : Option Switch :=
  [('v', verbose), ('h', help), ('V', version)].lookup c

def put (a : Arguments) (o : Opt) (value : String) : Except ArgumentError Arguments :=
  match o with
  | .config => if a.config.isSome then .error .repeated else .ok { a with config := value }
  | .outDir => if a.outDir.isSome then .error .repeated else .ok { a with outDir := value }
  | .suffix => if a.suffix.isSome then .error .repeated else .ok { a with suffix := value }
  | .reemit =>
    if a.reemit.isSome then .error .repeated
    else
      match ReemitPolicy.vocabulary.read? value with
      | some p => .ok { a with reemit := p }
      | .none => .error .badValue

def flip (a : Arguments) (w : Switch) : Except ArgumentError Arguments :=
  match w with
  | .dryRun => if a.dryRun then .error .repeated else .ok { a with dryRun := true }
  | .verbose => if a.verbose then .error .repeated else .ok { a with verbose := true }
  | .help => .error .helpWanted
  | .version => .error .versionWanted

/-- What a word is, going by its dashes. -/
inductive Word where
  /-- The word `--`. -/
  | escape
  | long (name : String) (value : Option String)
  /-- The letters after a single dash. -/
  | short (letters : List Char)
  | plain
deriving DecidableEq, Repr

def Word.of (word : String) : Word :=
  match word.toList with
  | ['-', '-'] => escape
  | '-' :: '-' :: r =>
    match Text.cut '=' r with
    | (name, []) => long (String.ofList name) .none
    | (name, vs) => long (String.ofList name) (String.ofList (['='].intercalate vs))
  | '-' :: c :: r => short (c :: r)
  | _ => plain

/-- How far the words have been taken in. -/
structure Progress where
  arguments : Arguments
  /-- The last option, with its value if there is one yet. -/
  pending : Option (Opt × Option String)
  /-- Whether only manifests follow. -/
  escaped : Bool

namespace Progress

/-- Takes in the option that is pending. -/
def settle (p : Progress) : Except ArgumentError Progress :=
  match p.pending with
  | .none => .ok p
  | some (_, .none) => .error .missingValue
  | some (o, some value) => do
    return { p with arguments := ← p.arguments.put o value, pending := .none }

def flip (p : Progress) (w : Switch) : Except ArgumentError Progress := do
  let p ← p.settle
  return { p with arguments := ← p.arguments.flip w }

def long (p : Progress) (name : String) (value : Option String) :
    Except ArgumentError Progress :=
  match Opt.named? name, Switch.named? name, value with
  | some o, _, some v => do
    let p ← p.settle
    return { p with arguments := ← p.arguments.put o v }
  | some o, _, .none => do
    let p ← p.settle
    return { p with pending := some (o, .none) }
  | .none, some _, some _ => .error .unwantedValue
  | .none, some w, .none => p.flip w
  | .none, .none, _ => .error .unknownArgument

def letter (p : Progress) (c : Char) : Except ArgumentError Progress :=
  match Switch.lettered? c with
  | some w => p.flip w
  | .none => .error .unknownArgument

def manifest (p : Progress) (word : String) : Except ArgumentError Progress := do
  let p ← p.settle
  return { p with arguments.manifests := p.arguments.manifests ++ [word] }

def plain (p : Progress) (word : String) : Except ArgumentError Progress :=
  match p.pending with
  | some (o, .none) => .ok { p with pending := some (o, some word) }
  | _ => p.manifest word

def word (p : Progress) (word : String) : Except ArgumentError Progress :=
  if p.escaped then p.manifest word
  else
    match Word.of word with
    | .escape => .ok { p with escaped := true }
    | .long name value => p.long name value
    | .short letters => letters.foldlM letter p
    | .plain => p.plain word

end Progress

def read (words : List String) : Except ArgumentError Arguments := do
  let p ← words.foldlM Progress.word ⟨.none, .none, false⟩
  let p ← p.settle
  if p.arguments.manifests.isEmpty then .error .missingManifest else return p.arguments

end Arguments

end SavedState
