import SavedState.Layer.Basic

/-!
TOML documents as they grow line by line. How a table came about decides who may still add to it:
a table with a header of its own is closed to dotted keys from elsewhere, one that only stands on
the way to another may get its header later, and an inline table is complete.
-/

namespace SavedState.Toml

/-- How a table came about. -/
inductive Kind where
  /-- By a header of its own. -/
  | headed
  /-- On the way of a header to another table. -/
  | passed
  /-- By a dotted key. -/
  | dotted
  /-- In braces. -/
  | inline
deriving DecidableEq, Repr

inductive Node where
  | text (value : String)
  | flag (value : Bool)
  | number
  /-- A date, a time or both. -/
  | moment (value : String)
  | array (items : List Node)
  | table (kind : Kind) (entries : List (String × Node))
  /-- The tables of a header in double brackets. -/
  | tables (list : List (List (String × Node)))
deriving Inhabited

abbrev Entries := List (String × Node)

namespace Node

/-- The key of the value that a table stands for as a whole. -/
def valueKey : String := "___figment_value_value"

/-- A key that no table below the top may have. -/
def reservedKey : String := "___figment_value_id"

/-- The value of a table below the top. -/
def ofTable? (entries : Layer.Table) : Option Layer.Value :=
  if (entries.lookup reservedKey).isSome then none
  else some ((entries.lookup valueKey).getD (.table entries))

mutual

/-- The value of a node in a layer, if it has one; a moment is a table with a key of its own. -/
def toValue? : Node → Option Layer.Value
  | text value => some (.text value)
  | flag value => some (.flag value)
  | number => some .number
  | moment value => some (.table [("$__toml_private_datetime", .text value)])
  | array items => (toValues? items).map .list
  | table _ entries => (toTable? entries).bind ofTable?
  | tables list => (toTables? list).map .list

def toValues? : List Node → Option (List Layer.Value)
  | [] => some []
  | n :: ns => do return (← toValue? n) :: (← toValues? ns)

def toTable? : List (String × Node) → Option Layer.Table
  | [] => some []
  | (key, n) :: es => do return (key, ← toValue? n) :: (← toTable? es)

def toTables? : List (List (String × Node)) → Option (List Layer.Value)
  | [] => some []
  | es :: list => do return (← (toTable? es).bind ofTable?) :: (← toTables? list)

end

end Node

namespace Entries

def set (key : String) (n : Node) (es : Entries) : Entries :=
  es.map fun e => if e.1 = key then (key, n) else e

/-- Changes the table at the end of a path, making the tables on the way that are not there yet.
A path of keys (`byKeys`) may not pass through a table with a header of its own. -/
def within (byKeys : Bool) (change : Kind → Entries → Option Entries) (kind : Kind) :
    List String → Entries → Option Entries
  | [], es => change kind es
  | key :: path, es =>
    match es.lookup key with
    | none => do
      let made := if byKeys then Kind.dotted else .passed
      let inner ← within byKeys change made path []
      return es ++ [(key, .table made inner)]
    | some (.table kind inner) =>
      if kind = .inline ∨ (byKeys ∧ kind = .headed) then none
      else do
        let inner ← within byKeys change kind path inner
        return set key (.table kind inner) es
    | some (.tables list) => do
      let last ← list.getLast?
      let last ← within byKeys change .headed path last
      return set key (.tables (list.dropLast ++ [last])) es
    | some _ => none

/-- Adds a value under a dotted key. No key is given twice, and the table that it goes to is
this one or came about by dotted keys. -/
def putPair (path : List String) (key : String) (n : Node) (es : Entries) : Option Entries :=
  within true
    (fun kind es =>
      if path ≠ [] ∧ kind ≠ .dotted then none
      else if (es.lookup key).isSome then none
      else some (es ++ [(key, n)]))
    .headed path es

/-- Opens the table of a header. -/
def openTable (path : List String) (key : String) (es : Entries) : Option Entries :=
  within false
    (fun _ es =>
      match es.lookup key with
      | none => some (es ++ [(key, .table .headed [])])
      | some (.table .passed inner) => some (set key (.table .headed inner) es)
      | some _ => none)
    .headed path es

/-- Opens one more table of a header in double brackets. -/
def openTables (path : List String) (key : String) (es : Entries) : Option Entries :=
  within false
    (fun _ es =>
      match es.lookup key with
      | none => some (es ++ [(key, .tables [[]])])
      | some (.tables list) => some (set key (.tables (list ++ [[]])) es)
      | some _ => none)
    .headed path es

end Entries

end SavedState.Toml
