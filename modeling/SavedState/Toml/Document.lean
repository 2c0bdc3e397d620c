import SavedState.Toml.Node
import SavedState.Toml.Scan

/-!
Reading TOML documents. A document is a sequence of lines that are empty, open a table or give a
key its value; a text that breaks a rule anywhere is no document at all.
-/

namespace SavedState.Toml

open Text.Reader (accept drop head)

def isWordChar (c : Char) : Bool :=
  c.isAlphanum || c == '_' || c == '+' || c == '-' || c == '.' || c == ':'

/-- The node that a word outside quotes stands for. -/
def ofWord? (word : List Char) : Option Node :=
  if word = "true".toList then some (.flag true)
  else if word = "false".toList then some (.flag false)
  else if isMoment word then some (.moment (String.ofList word))
  else if isInteger word ∨ isFloat word then some .number
  else none

/-- The time after a date and a space, with the space. -/
def readTime : Reader (List Char) := do
  drop
  let time ← Text.Reader.takeWhile isWordChar
  return ' ' :: time

/-- Whether a time follows a space. -/
def startsTime (s : List Char) : Bool :=
  match s with
  | ' ' :: c :: _ => c.isDigit
  | _ => false

/-- A word outside quotes. A date may go on with a time after a space. -/
def readWord : Reader Node := do
  let word ← Text.Reader.takeWhile isWordChar
  let rest ← Text.Reader.rest
  let more ← if isDate word ∧ startsTime rest then readTime else pure []
  match ofWord? (word ++ more) with
  | some n => return n
  | none => .fail ()

def ofOption {α : Type} : Option α → Reader α
  | some a => pure a
  | none => .fail ()

def expect (c : Char) : Reader Unit := do
  if ← accept c then return () else .fail ()

/-- The items of an array after its bracket, to the closing one. A comma may stand after the
last. -/
def readItems (item : Reader Node) : Reader (List Node) :=
  Text.Reader.collect do
    skipSpace
    if ← accept ']' then return ([], false)
    else
      let n ← item
      skipSpace
      if ← accept ']' then return ([n], false)
      else if ← accept ',' then return ([n], true)
      else .fail ()

/-- The pairs of an inline table after its brace, to the closing one. -/
def readPairs (value : Reader Node) : Reader Entries := do
  skipBlanks
  if ← accept '\x7d' then return []
  else
    Text.Reader.iterate (fun es => do
      let (path, key) ← readKey
      expect '='
      skipBlanks
      let n ← value
      let es ← ofOption (Entries.putPair path key n es)
      skipBlanks
      if ← accept '\x7d' then return (es, false)
      else
        expect ','
        return (es, true)) []

/-- A value that has at most `depth` brackets and braces around its innermost part. -/
def readValue (depth : Nat) : Reader Node := do
  if ← accept '\x22' then return .text (← readString '\x22')
  else if ← accept '\x27' then return .text (← readString '\x27')
  else
    match depth with
    | 0 => readWord
    | depth + 1 =>
      if ← accept '[' then return .array (← readItems (readValue depth))
      else if ← accept '\x7b' then return .table .inline (← readPairs (readValue depth))
      else readWord

/-- A document so far: its entries, and the path of the table that is open. -/
structure Draft where
  entries : Entries
  current : List String

namespace Draft

def readHeader (d : Draft) : Reader Draft := do
  drop
  if ← accept '[' then
    let (path, key) ← readKey
    expect ']'
    expect ']'
    finishLine
    return ⟨← ofOption (d.entries.openTables path key), path ++ [key]⟩
  else
    let (path, key) ← readKey
    expect ']'
    finishLine
    return ⟨← ofOption (d.entries.openTable path key), path ++ [key]⟩

def readPair (d : Draft) : Reader Draft := do
  let (path, key) ← readKey
  expect '='
  skipBlanks
  let n ← readValue (maxDepth - 1)
  finishLine
  let put := fun (_ : Kind) (es : Entries) => es.putPair path key n
  return { d with entries := ← ofOption (d.entries.within false put .headed d.current) }

def readLine (d : Draft) : Reader Draft := do
  skipBlanks
  match ← head with
  | some '[' => d.readHeader
  | some c =>
    if c = '#' ∨ c = '\n' ∨ c = '\r' then
      finishLine
      return d
    else d.readPair
  | none => return d

/-- The lines to the end of the text. -/
def readLines : Draft → Reader Draft :=
  Text.Reader.iterate fun d => do
    if (← head) = none then return (d, false) else return (← d.readLine, true)

end Draft

/-- The table of a document, as a layer, if each value in it has a meaning. -/
def read? (text : String) : Option Layer.Table :=
  let s := match text.toList with
    | '\uFEFF' :: s => s
    | s => s
  match Draft.readLines ⟨[], []⟩ s with
  | .error _ => none
  | .ok (d, _) => Node.toTable? d.entries

end SavedState.Toml
