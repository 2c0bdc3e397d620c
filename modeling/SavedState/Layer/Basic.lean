/-!
Layers of settings. A layer is a table of values; where one layer is laid over another, tables
are joined key by key and anything else hides what is below it.
-/

namespace SavedState.Layer

inductive Value where
  | text (value : String)
  | flag (value : Bool)
  | number
  | list (items : List Value)
  | table (entries : List (String × Value))
deriving Inhabited

abbrev Table := List (String × Value)

/-- Sets the value of a key; a new key goes to the end. -/
def put (key : String) (value : Value) : Table → Table
  | [] => [(key, value)]
  | e :: es => if e.1 = key then (key, value) :: es else e :: put key value es

mutual

/-- Lays the second value over the first. -/
def cover : Value → Value → Value
  | .table below, .table above => .table (coverAll below above)
  | _, above => above

def coverAll (below : Table) : Table → Table
  | [] => below
  | (key, value) :: above =>
    match below.lookup key with
    | none => coverAll (put key value below) above
    | some hidden => coverAll (put key (cover hidden value) below) above

end

/-- A value under a path of keys. -/
def nest (value : Value) : List String → Value
  | [] => value
  | key :: keys => .table [(key, nest value keys)]

end SavedState.Layer
