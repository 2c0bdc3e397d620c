import SavedState.Element
import SavedState.FieldType.Reader
import SavedState.Hierarchy
import SavedState.Json.Record

/-!
Manifests: the candidate fields of one round, and the hierarchy of the classes that their types
mention.
-/

namespace SavedState

structure ManifestEntry where
  enclosing : DeclaringType
  name : String
  type : String
  modifiers : Modifiers
deriving DecidableEq

structure Manifest where
  hierarchy : Hierarchy
  entries : List ManifestEntry
deriving DecidableEq

/-- The type of an entry knows the ancestors of every class that it mentions. -/
def ManifestEntry.toElement (closed : Hierarchy) (e : ManifestEntry) :
    Except TypeSyntaxError Element := do
  let type ← FieldType.read e.type
  return ⟨e.enclosing, e.name, type.inherit closed.parents, e.modifiers⟩

namespace Manifest

def toRound (m : Manifest) (isFinal : Bool) : Except TypeSyntaxError Round := do
  let closed := m.hierarchy.closed
  let elements ← m.entries.mapM fun e => e.toElement closed
  return ⟨elements, isFinal⟩

def readDeclaring : Json.Reader DeclaringType := do
  let s ← Json.readString
  match DeclaringType.read s with
  | .ok d => return d
  | .error e => .fail (.unfit e.message)

def readNames : Json.Reader NameSet := .ofList <$> Json.readList Json.readString

def readModifiers : Json.Reader Modifiers :=
  .ofList <$> Json.readList (Json.readWord Modifier.vocabulary.entries)

/-- The fields of an entry that have been read. -/
structure EntryFields where
  enclosing : Option DeclaringType
  name : Option String
  type : Option String
  modifiers : Option Modifiers

/-- All but the modifiers must be there. -/
def EntryFields.complete (e : EntryFields) : Except String ManifestEntry :=
  match e.enclosing, e.name, e.type with
  | none, _, _ => .error "enclosing"
  | some _, none, _ => .error "name"
  | some _, some _, none => .error "type"
  | some enclosing, some name, some type =>
    .ok ⟨enclosing, name, type, e.modifiers.getD .empty⟩

def entryFormat : Json.Format ManifestEntry EntryFields where
  name := "ManifestElement"
  fields :=
    [⟨"enclosing", fun e => e.enclosing.isSome,
        fun e => (fun d => { e with enclosing := some d }) <$> readDeclaring⟩,
      ⟨"name", fun e => e.name.isSome,
        fun e => (fun s => { e with name := some s }) <$> Json.readString⟩,
      ⟨"type", fun e => e.type.isSome,
        fun e => (fun s => { e with type := some s }) <$> Json.readString⟩,
      ⟨"modifiers", fun e => e.modifiers.isSome,
        fun e => (fun ms => { e with modifiers := some ms }) <$> readModifiers⟩]
  ignoresOthers := false
  empty := ⟨none, none, none, none⟩
  complete := EntryFields.complete

def readEntry : Json.Reader ManifestEntry := entryFormat.read

structure Fields where
  hierarchy : Option Hierarchy
  entries : Option (List ManifestEntry)

def Fields.complete (m : Fields) : Manifest :=
  ⟨m.hierarchy.getD .empty, m.entries.getD []⟩

def format : Json.Format Manifest Fields where
  name := "Manifest"
  fields :=
    [⟨"hierarchy", fun m => m.hierarchy.isSome,
        fun m => (fun h => { m with hierarchy := some h }) <$>
          Json.readMap readNames Hierarchy.empty Hierarchy.put⟩,
      ⟨"elements", fun m => m.entries.isSome,
        fun m => (fun es => { m with entries := some es }) <$> Json.readList readEntry⟩]
  ignoresOthers := false
  empty := ⟨none, none⟩
  complete := fun m => .ok m.complete

def ofText (text : String) : Except Json.ReadError Manifest :=
  Json.readText format.read text

end Manifest

end SavedState
