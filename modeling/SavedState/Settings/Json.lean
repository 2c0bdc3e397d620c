import SavedState.Json.Quoted
import SavedState.Json.Record
import SavedState.Settings

/-!
Settings as JSON. Each field may be left out and then has its default; members of other names
are of no account.
-/

namespace SavedState

namespace Settings

/-- The settings that are given. -/
structure Given where
  suffix : Option String
  reemit : Option ReemitPolicy
  validationSeverity : Option Severity
  artifactSeverity : Option Severity

def Given.nothing : Given := ⟨.none, .none, .none, .none⟩

def Given.complete (g : Given) : Settings :=
  ⟨g.suffix.getD default.suffix, g.reemit.getD default.reemit,
    g.validationSeverity.getD default.validationSeverity,
    g.artifactSeverity.getD default.artifactSeverity⟩

def format : Json.Format Settings Given where
  name := "ProcessorConfig"
  fields :=
    [⟨"suffix", fun g => g.suffix.isSome,
        fun g => (fun s => { g with suffix := some s }) <$> Json.readString⟩,
      ⟨"reemit", fun g => g.reemit.isSome,
        fun g => (fun p => { g with reemit := some p }) <$>
          Json.readWord ReemitPolicy.vocabulary.entries⟩,
      ⟨"validation_severity", fun g => g.validationSeverity.isSome,
        fun g => (fun s => { g with validationSeverity := some s }) <$>
          Json.readWord Severity.vocabulary.entries⟩,
      ⟨"artifact_severity", fun g => g.artifactSeverity.isSome,
        fun g => (fun s => { g with artifactSeverity := some s }) <$>
          Json.readWord Severity.vocabulary.entries⟩]
  ignoresOthers := true
  empty := .nothing
  complete := fun g => .ok g.complete

def ofText (text : String) : Except Json.ReadError Settings :=
  Json.readText format.read text

def toText (s : Settings) : String :=
  Json.writeObject
    [("suffix", Json.quote s.suffix), ("reemit", Json.quote s.reemit.word),
      ("validation_severity", Json.quote s.validationSeverity.word),
      ("artifact_severity", Json.quote s.artifactSeverity.word)]

end Settings

namespace Json.Value

def asString : Value → Except ReadError String
  | string s => .ok s
  | v => .error (.mismatch v.describe "a string")

/-- A word of a vocabulary: a string, or an object with null under the word and nothing else. -/
def asWord {α : Type} (entries : List (String × α)) : Value → Except ReadError α
  | string word => ofWord entries word
  | object [(word, value)] => do
    let a ← ofWord entries word
    match value with
    | null => return a
    | value => .error (.mismatch value.describe "unit")
  | object _ => .error (.unfit "invalid value: map, expected map with a single key")
  | v => .error (.mismatch v.describe "string or map")

end Json.Value

namespace Settings

/-- Takes in the value of the field with the given name. -/
def Given.put (g : Given) (name : String) (value : Json.Value) :
    Except Json.ReadError Given :=
  if name = "suffix" then value.asString.map fun s => { g with suffix := some s }
  else if name = "reemit" then
    (value.asWord ReemitPolicy.vocabulary.entries).map fun p => { g with reemit := some p }
  else if name = "validation_severity" then
    (value.asWord Severity.vocabulary.entries).map fun s => { g with validationSeverity := some s }
  else if name = "artifact_severity" then
    (value.asWord Severity.vocabulary.entries).map fun s => { g with artifactSeverity := some s }
  else .ok g

/-- Reads settings from a value whose members stand in the order of their names. -/
def ofValue : Json.Value → Except Json.ReadError Settings
  | .object members => do
    let g ← members.foldlM (fun (g : Given) m => g.put m.1 m.2) .nothing
    return g.complete
  | .array items => do
    let names := format.fields.map (·.name)
    let g ← (names.zip items).foldlM (fun (g : Given) m => g.put m.1 m.2) .nothing
    if names.length < items.length then
      .error (.unfit ("invalid length " ++ items.length.repr ++
        ", expected fewer elements in array"))
    else return g.complete
  | v => .error (.mismatch v.describe "struct ProcessorConfig")

end Settings

end SavedState
