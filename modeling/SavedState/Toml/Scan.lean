import SavedState.Binary64
import SavedState.Text.Hex
import SavedState.Text.Reader
import SavedState.Text.Segments

/-!
The parts of TOML text below values: blanks, comments, strings, keys, and the words that stand
for numbers, truth values and moments.
-/

namespace SavedState.Toml

open Text.Reader (accept drop head)

abbrev Reader := Text.Reader Unit

def isBlank (c : Char) : Bool := c == ' ' || c == '\t'

/-- The characters that may stand in a comment or, quotes and backslashes aside, in a string. -/
def isPlain (c : Char) : Bool := c == '\t' || (32 ≤ c.toNat && c.toNat != 127)

def skipBlanks : Reader Unit := do
  let _ ← Text.Reader.takeWhile isBlank
  return ()

/-- The end of a line, if it comes next. -/
def skipLineEnd? : Reader Bool := do
  if ← accept '\n' then return true
  else if ← accept '\r' then
    if ← accept '\n' then return true else .fail ()
  else return false

/-- Reads over a comment, if one comes next. -/
def skipComment : Reader Unit := do
  if ← accept '#' then
    let _ ← Text.Reader.takeWhile isPlain
    return ()

/-- The rest of a line without anything on it but blanks and a comment. -/
def finishLine : Reader Unit := do
  skipBlanks
  skipComment
  if ← skipLineEnd? then return ()
  else if (← head) = none then return ()
  else .fail ()

/-- Takes a blank, an end of a line or a comment, if one comes next. -/
def skipPiece : Reader Bool := do
  match ← head with
  | none => return false
  | some c =>
    if isBlank c then
      drop
      return true
    else if c = '#' then
      skipComment
      return true
    else skipLineEnd?

/-- Reads over blanks, ends of lines and comments. -/
def skipSpace : Reader Unit :=
  Text.Reader.iterate (fun _ => do return ((), ← skipPiece)) ()

/-- As many hexadecimal digits as told, as the character that they stand for. -/
def readScalar (digits : Nat) : Reader Char := fun s =>
  match if (s.take digits).length = digits then Text.ofHex? (s.take digits) else none with
  | none => .error ()
  | some n =>
    if n.isValidChar then .ok (Char.ofNat n, ⟨s.drop digits, s.drop_suffix digits⟩) else .error ()

/-- The escapes of one letter, by that letter. -/
def shortEscape? (c : Char) : Option Char :=
  [('b', '\x08'), ('t', '\t'), ('n', '\n'), ('f', '\x0c'), ('r', '\r'), ('\x22', '\x22'),
    ('\\', '\\')].lookup c

/-- What a backslash stands for with the characters after it. -/
def readEscape : Reader Char := do
  match ← head with
  | none => .fail ()
  | some c =>
    drop
    if c = 'u' then readScalar 4
    else if c = 'U' then readScalar 8
    else
      match shortEscape? c with
      | some d => return d
      | none => .fail ()

/-- One character of a string on one line, or the closing quote. A backslash means something only
where `escapes` says so. -/
def lineChar (quote : Char) (escapes : Bool) : Reader (List Char × Bool) := do
  match ← head with
  | none => .fail ()
  | some c =>
    drop
    if c = quote then return ([], false)
    else if c = '\\' ∧ escapes then return ([← readEscape], true)
    else if isPlain c then return ([c], true)
    else .fail ()

/-- A string on one line after its opening quote, to the closing one. -/
def lineChars (quote : Char) (escapes : Bool) : Reader (List Char) :=
  Text.Reader.collect (lineChar quote escapes)

/-- Whether nothing but blanks comes before the end of the line. -/
def endsLine (s : List Char) : Bool :=
  match s.dropWhile isBlank with
  | '\n' :: _ => true
  | '\r' :: '\n' :: _ => true
  | _ => false

/-- Reads over blanks and ends of lines. -/
def skipGap : Reader Unit :=
  Text.Reader.iterate (fun _ => do
    skipBlanks
    return ((), ← skipLineEnd?)) ()

/-- A piece of a string over several lines, or the closing quotes. Up to two quotes may stand
right before those. A backslash at the end of a line takes away all blanks and ends of lines that
follow. -/
def blockPiece (quote : Char) (escapes : Bool) : Reader (List Char × Bool) := do
  match ← head with
  | none => .fail ()
  | some c =>
    if c = quote then
      let run ← Text.Reader.takeWhile (· == quote)
      if run.length < 3 then return (run, true)
      else if run.length ≤ 5 then return (run.drop 3, false)
      else .fail ()
    else
      drop
      if c = '\\' ∧ escapes then
        if endsLine (← Text.Reader.rest) then
          skipGap
          return ([], true)
        else return ([← readEscape], true)
      else if isPlain c ∨ c = '\n' then return ([c], true)
      else if c = '\r' then
        if ← accept '\n' then return (['\n'], true) else .fail ()
      else .fail ()

/-- A string over several lines after its opening quotes, to the closing ones. -/
def blockChars (quote : Char) (escapes : Bool) : Reader (List Char) :=
  Text.Reader.collect (blockPiece quote escapes)

/-- A string whose first quote has been taken. -/
def readString (quote : Char) : Reader String := do
  let escapes := quote == '\x22'
  if ← accept quote then
    if ← accept quote then
      let _ ← skipLineEnd?
      return String.ofList (← blockChars quote escapes)
    else return ""
  else return String.ofList (← lineChars quote escapes)

def isBareKeyChar (c : Char) : Bool := c.isAlphanum || c == '_' || c == '-'

def readSimpleKey : Reader String := do
  match ← head with
  | some '\x22' =>
    drop
    return String.ofList (← lineChars '\x22' true)
  | some '\x27' =>
    drop
    return String.ofList (← lineChars '\x27' false)
  | _ =>
    let name ← Text.Reader.takeWhile isBareKeyChar
    if name.isEmpty then .fail () else return String.ofList name

/-- The further parts of a dotted key. -/
def moreKeys : Reader (List String) :=
  Text.Reader.collect do
    skipBlanks
    if ← accept '.' then
      skipBlanks
      return ([← readSimpleKey], true)
    else return ([], false)

/-- How deep arrays, braces and dotted keys may go. -/
def maxDepth : Nat := 80

/-- A dotted key, as the path to its table and its last part. -/
def readKey : Reader (List String × String) := do
  skipBlanks
  let key ← readSimpleKey
  let keys ← moreKeys
  if maxDepth ≤ keys.length + 1 then .fail ()
  else return ((key :: keys).dropLast, (key :: keys).getLast (by simp))

/-! Numbers. -/

/-- Digits, with single underscores between some of them. -/
def digits? (isDigit : Char → Bool) (s : List Char) : Option (List Char) :=
  if (Text.parts '_' s).all fun p => !p.isEmpty && p.all isDigit then some (s.filter (· ≠ '_'))
  else none

def isHexDigit (c : Char) : Bool := (Text.hexValue? c).isSome

def digitsValue (base : Nat) (ds : List Char) : Nat :=
  ds.foldl (fun n d => base * n + (Text.hexValue? d).getD 0) 0

/-- A word without its sign, and whether that is a minus. -/
def unsigned : List Char → Bool × List Char
  | '-' :: s => (true, s)
  | '+' :: s => (false, s)
  | s => (false, s)

/-- The whole part of a decimal: no zero stands before another digit. -/
def wholePart? (s : List Char) : Option (List Char) :=
  if s.head? = some '0' ∧ s.length ≠ 1 then none else digits? Char.isDigit s

/-- Whether a word is an integer of 64 bits. -/
def isInteger (word : List Char) : Bool :=
  let inBase (base : Nat) (isDigit : Char → Bool) (s : List Char) : Bool :=
    (digits? isDigit s).any fun ds => digitsValue base ds < Nat.pow 2 63
  match word with
  | '0' :: 'x' :: s => inBase 16 isHexDigit s
  | '0' :: 'o' :: s => inBase 8 (fun c => '0' ≤ c && c ≤ '7') s
  | '0' :: 'b' :: s => inBase 2 (fun c => c == '0' || c == '1') s
  | word =>
    let (negative, s) := unsigned word
    (wholePart? s).any fun ds =>
      if negative then digitsValue 10 ds ≤ Nat.pow 2 63 else digitsValue 10 ds < Nat.pow 2 63

/-- Whether decimal digits times a power of ten round to a finite number. -/
def isFinite (ds : List Char) (exponent : Int) : Bool :=
  let n := digitsValue 10 ds
  let size := exponent + Int.ofNat n.repr.length
  if n = 0 ∨ size < -400 then true
  else if 400 < size then false
  else 
    (Binary64.ofQuotient? (n * Nat.pow 10 exponent.toNat) (Nat.pow 10 (-exponent).toNat)).isSome

/-- Whether a word is a number with a point or an exponent. One that is too large is none,
unless it is negative. -/
def isFloat (word : List Char) : Bool :=
  let (negative, s) := unsigned word
  if s = "inf".toList ∨ s = "nan".toList then true
  else
    let (mantissa, exponents) := Text.cut 'e' (s.map fun c => if c = 'E' then 'e' else c)
    let (whole, places) := Text.cut '.' mantissa
    let exponent? : Option Int :=
      match exponents with
      | [] => some 0
      | [e] =>
        let (negative, ds) := unsigned e
        (digits? Char.isDigit ds).map fun ds =>
          if negative then -(Int.ofNat (digitsValue 10 ds)) else Int.ofNat (digitsValue 10 ds)
      | _ => none
    let places? :=
      match places with
      | [] => some []
      | [p] => digits? Char.isDigit p
      | _ => none
    match wholePart? whole, places?, exponent? with
    | some w, some p, some e =>
      !(places.isEmpty && exponents.isEmpty) &&
        (negative || isFinite (w ++ p) (e - Int.ofNat p.length))
    | _, _, _ => false

/-! Moments. -/

/-- A number of exactly `width` digits between two bounds. -/
def fixed? (width lo hi : Nat) (s : List Char) : Option Nat :=
  if s.length = width ∧ s.all Char.isDigit then
    let n := digitsValue 10 s
    if lo ≤ n ∧ n ≤ hi then some n else none
  else none

def daysInMonth (year month : Nat) : Nat :=
  if month = 2 then
    if year % 4 = 0 ∧ (year % 100 ≠ 0 ∨ year % 400 = 0) then 29 else 28
  else if month = 4 ∨ month = 6 ∨ month = 9 ∨ month = 11 then 30
  else 31

def isDate (s : List Char) : Bool :=
  match Text.parts '-' s with
  | [y, m, d] =>
    match fixed? 4 0 9999 y, fixed? 2 1 12 m with
    | some year, some month => (fixed? 2 1 (daysInMonth year month) d).isSome
    | _, _ => false
  | _ => false

/-- A time of day, perhaps with parts of a second. -/
def isTime (s : List Char) : Bool :=
  match Text.parts ':' s with
  | [h, m, sec] =>
    let (whole, places) := Text.cut '.' sec
    (fixed? 2 0 23 h).isSome && (fixed? 2 0 59 m).isSome && (fixed? 2 0 60 whole).isSome &&
      match places with
      | [] => true
      | [p] => !p.isEmpty && p.all Char.isDigit
      | _ => false
  | _ => false

/-- Hours and minutes that a clock is ahead or behind. -/
def isOffset (s : List Char) : Bool :=
  match Text.parts ':' s with
  | [h, m] => (fixed? 2 0 23 h).isSome && (fixed? 2 0 59 m).isSome
  | _ => false

/-- A time of day, perhaps with what its clock is ahead or behind. -/
def isZonedTime (s : List Char) : Bool :=
  match s.getLast? with
  | some 'Z' => isTime s.dropLast
  | some 'z' => isTime s.dropLast
  | _ =>
    let time := s.takeWhile fun c => c != '+' && c != '-'
    match s.dropWhile fun c => c != '+' && c != '-' with
    | [] => isTime time
    | _ :: offset => isTime time && isOffset offset

def isMoment (word : List Char) : Bool :=
  isTime word || isDate word ||
    isDate (word.take 10) &&
      match word.drop 10 with
      | c :: time => (c == 'T' || c == 't' || c == ' ') && isZonedTime time
      | [] => false

end SavedState.Toml
