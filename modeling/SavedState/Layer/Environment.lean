import SavedState.Layer.Basic
import SavedState.Text.Blank
import SavedState.Text.Utf8
import SavedState.Toml.Scan

/-!
The layer of the environment. A variable whose name has the right beginning gives a value to the
setting that the rest of its name leads to. The value is what its text says in a small notation
of its own, and a text that does not follow that notation stands for itself. Names that differ in
case lead to one setting; there the last variable counts.
-/

namespace SavedState.Layer.Environment

open Text.Reader (accept acceptWord drop head)

abbrev Reader := Text.Reader Unit

def isSpace (c : Char) : Bool :=
  c == ' ' || c == '\t' || c == '\n' || c == '\x0c' || c == '\r'

def skipSpace : Reader Unit := do
  let _ ← Text.Reader.takeWhile isSpace
  return ()

/-- The characters that end a word without quotes. -/
def isSeparator (c : Char) : Bool :=
  c == ',' || c == '\x7b' || c == '\x7d' || c == '[' || c == ']'

def isDigits (s : List Char) : Bool := !s.isEmpty && s.all Char.isDigit

/-- Whether a word has a point and is a decimal, perhaps with an exponent. -/
def isDecimal (word : List Char) : Bool :=
  let s := (Toml.unsigned word).2.map fun c => if c = 'E' then 'e' else c
  let (mantissa, exponents) := Text.cut 'e' s
  match Text.cut '.' mantissa with
  | (whole, [places]) =>
    isDigits (whole ++ places) &&
      match exponents with
      | [] => true
      | [e] => isDigits (Toml.unsigned e).2
      | _ => false
  | _ => false

/-- Whether a word is an integer that fits 64 bits, with a sign or without. -/
def isInteger (word : List Char) : Bool :=
  let (negative, s) := Toml.unsigned word
  isDigits s &&
    if negative then Toml.digitsValue 10 s ≤ Nat.pow 2 63
    else Toml.digitsValue 10 s < Nat.pow 2 64

/-- What a word without quotes stands for. -/
def ofWord (word : List Char) : Value :=
  let word := Text.trim word
  if isDecimal word || isInteger word then .number else .text (String.ofList word)

/-- One character and the quote after it. -/
def readCharacter : Reader Value := do
  match ← head with
  | none => .fail ()
  | some c =>
    drop
    if ← accept '\x27' then return .text (String.singleton c) else .fail ()

/-- A string after its quote, to the closing one. Of what stands before the first backslash, only
as many bytes are kept as it has characters. -/
def readQuoted : Reader String := do
  let beginning ← Text.Reader.takeWhile fun c => Toml.isPlain c && c != '\x22' && c != '\\'
  if ← accept '\x22' then return String.ofList beginning
  else
    let more ← Toml.lineChars '\x22' true
    return String.ofList (Text.fitting beginning.length beginning ++ more)

/-- A value that is no list and no table. -/
def readLeaf : Reader Value := do
  if ← acceptWord "true" then return .flag true
  else if ← acceptWord "false" then return .flag false
  else if ← accept '\x22' then return .text (← readQuoted)
  else if ← accept '\x27' then readCharacter
  else return ofWord (← Text.Reader.takeWhile fun c => !isSeparator c)

/-- A key in braces, with the sign after it. -/
def readKey : Reader String := do
  skipSpace
  let key ← if ← accept '\x22' then readQuoted
    else do
      let name ← Text.Reader.takeWhile Toml.isBareKeyChar
      if name.isEmpty then .fail () else pure (String.ofList name)
  skipSpace
  if ← accept '=' then return key else .fail ()

/-- The items of a list after its bracket, to the closing one. A comma may stand after the
last. -/
def readItems (item : Reader Value) : Reader (List Value) :=
  Text.Reader.collect do
    if ← accept ']' then return ([], false)
    else
      let v ← item
      if ← accept ']' then return ([v], false)
      else if ← accept ',' then return ([v], true)
      else .fail ()

/-- The entries of a table after its brace, to the closing one. -/
def readEntries (value : Reader Value) : Reader Table :=
  Text.Reader.iterate (fun entries => do
    if ← accept '\x7d' then return (entries, false)
    else
      let key ← readKey
      let entries := put key (← value) entries
      if ← accept '\x7d' then return (entries, false)
      else if ← accept ',' then return (entries, true)
      else .fail ()) []

/-- A value that has at most `depth` brackets and braces around its innermost part. -/
def readValue (depth : Nat) : Reader Value := do
  skipSpace
  let v ← match depth with
    | 0 => readLeaf
    | depth + 1 => do
      if ← accept '[' then pure (.list (← readItems (readValue depth)))
      else if ← accept '\x7b' then pure (.table (← readEntries (readValue depth)))
      else readLeaf
  skipSpace
  return v

/-- What the text of a variable stands for; it has no more brackets than characters. -/
def ofText (text : String) : Value :=
  (Text.Reader.runAll (readValue text.length) text).getD (.text text)

/-- The beginning of the names that count, in lower case. -/
def mark : List Char := "icicle_".toList

/-- A name with a dot in the place of every two underscores. -/
def dots : List Char → List Char
  | '_' :: '_' :: s => '.' :: dots s
  | c :: s => c :: dots s
  | [] => []

/-- The keys that a name leads to, if it is the name of a setting. Case makes no difference, and
neither do blanks around the name. -/
def path? (name : String) : Option (List String) :=
  let s := Text.trim name.toList
  if (s.take mark.length).map Char.toLower = mark then
    let keys := Text.parts '.' (Text.trim (dots (s.drop mark.length)))
    if keys.contains [] then none else some (keys.map fun k => String.ofList (k.map Char.toLower))
  else none

/-- A layer with what a variable says laid over it, if it says anything. -/
def layOver (t : Table) (e : String × String) : Table :=
  match (path? e.1).map (nest (ofText e.2)) with
  | some (.table entries) => coverAll t entries
  | _ => t

/-- The layer of the variables of a process, which are laid over one another in the order in which
the process has them. -/
def toLayer (environment : List (String × String)) : Table := environment.foldl layOver []

end SavedState.Layer.Environment
