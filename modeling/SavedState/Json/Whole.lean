import SavedState.Json.Record
import SavedState.Text.Order

/-!
JSON values read whole, of whatever kind. The members of an object come out in the order of their
names, and of two with one name the later counts.
-/

namespace SavedState.Json

open Text.Reader (drop)

/-- Puts a member where its name belongs. -/
def putMember (members : List (String × Value)) (name : String) (value : Value) :
    List (String × Value) :=
  match members with
  | [] => [(name, value)]
  | m :: ms =>
    match Text.compareTexts name m.1 with
    | .lt => (name, value) :: m :: ms
    | .eq => (name, value) :: ms
    | .gt => m :: putMember ms name value

/-- A value that is no array and no object. -/
def readAtom : Reader Value := do
  let c ← peek
  if c = some '\x22' then
    drop
    return .string (← stringBody)
  else if c = some 'n' then
    literal ['n', 'u', 'l', 'l']
    return .null
  else if c = some 't' then
    literal ['t', 'r', 'u', 'e']
    return .bool true
  else if c = some 'f' then
    literal ['f', 'a', 'l', 's', 'e']
    return .bool false
  else if c = some '-' ∨ c.any Char.isDigit then return .number (← readNumber)
  else .fail (unexpected c)

/-- A value that has at most `depth` brackets and braces around its innermost part. -/
def readValue (depth : Nat) : Reader Value := do
  let c ← peek
  match depth with
  | 0 => readAtom
  | depth + 1 =>
    if c = some '[' then return .array (← readList (readValue depth))
    else if c = some '\x7b' then return .object (← readMap (readValue depth) [] putMember)
    else readAtom

/-- The value of a whole text; it has no more brackets than characters. -/
def Value.ofText (text : String) : Except ReadError Value := readText (readValue text.length) text

end SavedState.Json
