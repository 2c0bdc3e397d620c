import SavedState.Json.Quoted
import SavedState.Json.Value

/-!
JSON values as text, without blanks.
-/

namespace SavedState.Json

def Number.write : Number → String
  | integer value => toString value
  | float negative magnitude => (if negative then "-" else "") ++ magnitude.render

mutual

def Value.write : Value → String
  | .null => "null"
  | .bool value => if value then "true" else "false"
  | .number value => value.write
  | .string value => quote value
  | .array items => writeArray (writeAll items)
  | .object members => writeObject (writeMembers members)

def writeAll : List Value → List String
  | [] => []
  | v :: vs => v.write :: writeAll vs

def writeMembers : List (String × Value) → List (String × String)
  | [] => []
  | (name, v) :: members => (name, v.write) :: writeMembers members

end

@[simp] theorem writeAll_eq (items : List Value) : writeAll items = items.map Value.write := by
  induction items with
  | nil => rfl
  | cons v vs ih => rw [writeAll, ih, List.map_cons]

@[simp] theorem writeMembers_eq (members : List (String × Value)) :
    writeMembers members = members.map fun m => (m.1, m.2.write) := by
  induction members with
  | nil => rfl
  | cons m members ih => rw [writeMembers, ih, List.map_cons]

end SavedState.Json
