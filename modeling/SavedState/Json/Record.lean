import SavedState.Json.Scan

/-!
Readers of values of a wanted kind: strings, arrays, objects, records and words of a vocabulary.

The first thing that is wrong from left to right decides the error. So a member's name is judged
before the colon after it, and a missing field is noticed at the closing bracket.
-/

namespace SavedState.Json

open Text.Reader (drop)

variable {α β : Type}

def readString : Reader String := do
  if (← peek) = some '\x22' then
    drop
    stringBody
  else mismatch "a string"

/-- The items of an array from the first or from the one after a comma, to the closing bracket. -/
def moreItems (item : Reader α) : Reader (List α) :=
  Text.Reader.collect do
    let a ← item
    let c ← peek
    if c = some ']' then
      drop
      return ([a], false)
    else if c = some ',' then
      drop
      return ([a], true)
    else .fail (unexpected c)

def readList (item : Reader α) : Reader (List α) := do
  if (← peek) = some '[' then
    drop
    if (← peek) = some ']' then
      drop
      return []
    else moreItems item
  else mismatch "a sequence"

/-- The members of an object from the name after a bracket or a comma, to the closing bracket.
`member` says how the value under a name is read into what was read so far. -/
def moreMembers (member : β → String → Reader β) : β → Reader β :=
  Text.Reader.iterate fun b => do
    expect '\x22'
    let b ← member b (← stringBody)
    let c ← peek
    if c = some '\x7d' then
      drop
      return (b, false)
    else if c = some ',' then
      drop
      return (b, true)
    else .fail (unexpected c)

/-- The members of an object whose opening bracket has been taken. -/
def membersBody (member : β → String → Reader β) (b : β) : Reader β := do
  if (← peek) = some '\x7d' then
    drop
    return b
  else moreMembers member b

/-- A value after its name: a colon comes first. -/
def afterColon (value : Reader α) : Reader α := do
  expect ':'
  value

/-- An object as a map; of two members with one name the later counts. -/
def readMap (value : Reader α) (b : β) (put : β → String → α → β) : Reader β := do
  if (← peek) = some '\x7b' then
    drop
    membersBody (fun b name => put b name <$> afterColon value) b
  else mismatch "a map"

/-- A field of a record: how its value is read into the fields read so far. -/
structure Field (β : Type) where
  name : String
  isRead : β → Bool
  read : β → Reader β

/-- The fields of a record in their order. A record is an object with a member for each field, or
an array of the values of the fields; some may be left out. -/
structure Format (α β : Type) where
  name : String
  fields : List (Field β)
  /-- Whether members of other names are read over. -/
  ignoresOthers : Bool
  empty : β
  /-- The record that the fields make, or the name of one that is missing. -/
  complete : β → Except String α

namespace Format

def member (f : Format α β) (b : β) (name : String) : Reader β :=
  match f.fields.find? fun field => field.name == name with
  | some field =>
    if field.isRead b then .fail (.duplicateField name) else afterColon (field.read b)
  | none =>
    if f.ignoresOthers then do
      afterColon skipValue
      return b
    else .fail (.unknownField name (f.fields.map (·.name)))

/-- The values of fields in an array, as many as there are. -/
def slots (b : β) (isFirst : Bool) : List (Field β) → Reader β
  | [] => pure b
  | field :: fields => do
    if (← peek) = some ']' then return b
    else
      if !isFirst then expect ','
      slots (← field.read b) false fields

/-- The error of an array that ends before the value of a field that must be there. -/
def shortage (f : Format α β) (field : String) : ReadError :=
  .unfit ("invalid length " ++ (f.fields.findIdx fun x => x.name == field).repr ++
    ", expected struct " ++ f.name ++ " with " ++ f.fields.length.repr ++ " elements")

def read (f : Format α β) : Reader α := do
  let c ← peek
  if c = some '\x7b' then
    drop
    let b ← membersBody f.member f.empty
    .ofExcept ((f.complete b).mapError .missingField)
  else if c = some '[' then
    drop
    let b ← slots f.empty true f.fields
    let a ← .ofExcept ((f.complete b).mapError f.shortage)
    expect ']'
    return a
  else mismatch ("struct " ++ f.name)

end Format

/-- The value that a vocabulary has for a word. -/
def ofWord (entries : List (String × α)) (word : String) : Except ReadError α :=
  match entries.lookup word with
  | some a => .ok a
  | none => .error (.unknownVariant word (entries.map (·.1)))

def readUnit : Reader Unit := do
  if (← peek) = some 'n' then literal ['n', 'u', 'l', 'l'] else mismatch "unit"

/-- A word of a vocabulary: a string, or an object with null under the word. -/
def readWord (entries : List (String × α)) : Reader α := do
  let c ← peek
  if c = some '\x22' then
    drop
    .ofExcept (ofWord entries (← stringBody))
  else if c = some '\x7b' then
    drop
    expect '\x22'
    let a ← .ofExcept (ofWord entries (← stringBody))
    afterColon readUnit
    expect '\x7d'
    return a
  else .fail (unexpected c)

end SavedState.Json
