import SavedState.Element
import SavedState.FieldType.Reader
import SavedState.Json.Value

/-!
Elements described by plain texts, and the manifest that describes the same elements.
-/

namespace SavedState

structure Fixture where
  enclosing : String
  name : String
  type : String
  modifiers : List String
  /-- Supertypes of the class that the type names. -/
  supertypes : List String

inductive FixtureError where
  | declaring (text : String) (source : TypeSyntaxError)
  | type (text : String) (source : TypeSyntaxError)
  | modifier (word : String)
deriving DecidableEq, Repr

def FixtureError.message : FixtureError → String
  | declaring text source => "parse declaring type " ++ text ++ ": " ++ source.message
  | type text source => "parse type " ++ text ++ ": " ++ source.message
  | modifier word => Modifier.vocabulary.complaint word

namespace Fixture

def readModifier (word : String) : Except FixtureError Modifier :=
  match Modifier.vocabulary.read? word with
  | some m => .ok m
  | none => .error (.modifier word)

def build (f : Fixture) : Except FixtureError Element := do
  let enclosing ← (DeclaringType.read f.enclosing).mapError (.declaring f.enclosing)
  let type ← (FieldType.read f.type).mapError (.type f.type)
  let modifiers ← f.modifiers.mapM readModifier
  return ⟨enclosing, f.name, { type with supertypes := type.supertypes.insertAll f.supertypes },
    .ofList modifiers⟩

def round (fs : List Fixture) (isFinal : Bool) : Except FixtureError Round := do
  let elements ← fs.mapM build
  return ⟨elements, isFinal⟩

def names (l : List String) : Json.Value := .array (l.map .string)

/-- The entry of a manifest for a fixture; the supertypes of its class belong elsewhere. -/
def entry (f : Fixture) : Json.Value :=
  .object [("enclosing", .string f.enclosing), ("modifiers", names f.modifiers),
    ("name", .string f.name), ("type", .string f.type)]

def manifest (hierarchy : List (String × List String)) (fs : List Fixture) : Json.Value :=
  .object [("elements", .array (fs.map entry)),
    ("hierarchy", .object (hierarchy.map fun e => (e.1, names e.2)))]

end Fixture

end SavedState
