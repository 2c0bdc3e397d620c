import SavedState.Json.Reader
import SavedState.Text.Hex
import SavedState.Text.Utf8

/-!
The parts of JSON text below values: strings, numerals, words. Also what a message calls the
value that comes next, and reading over a value that nobody asks for.
-/

namespace SavedState.Json

open Text.Reader (accept drop head)

/-- Four hexadecimal digits. -/
def readHex : Reader Nat := fun s =>
  if Text.byteLength (s.take 4) < 4 then .error .truncated
  else
    match if (s.take 4).length = 4 then Text.ofHex? (s.take 4) else none with
    | none => .error .malformed
    | some n => .ok (n, ⟨s.drop 4, s.drop_suffix 4⟩)

def isHighSurrogate (n : Nat) : Bool := 0xD800 ≤ n && n ≤ 0xDBFF

def isLowSurrogate (n : Nat) : Bool := 0xDC00 ≤ n && n ≤ 0xDFFF

/-- The character that `\u` stands for with the digits after it; one beyond 0xFFFF takes two. -/
def readUnicode : Reader Char := do
  let high ← readHex
  if isLowSurrogate high then .fail .malformed
  else if isHighSurrogate high then
    literal ['\\', 'u']
    let low ← readHex
    if isLowSurrogate low then
      return Char.ofNat (0x10000 + (high - 0xD800) * 0x400 + (low - 0xDC00))
    else .fail .malformed
  else return Char.ofNat high

/-- The escapes of one letter, by that letter. -/
def shortEscape? (c : Char) : Option Char :=
  if c = '\x22' ∨ c = '\\' ∨ c = '/' then some c
  else if c = 'b' then some '\x08'
  else if c = 'f' then some '\x0c'
  else if c = 'n' then some '\n'
  else if c = 'r' then some '\r'
  else if c = 't' then some '\t'
  else none

/-- What a backslash stands for with the characters after it. -/
def readEscape (unicode : Reader Char) : Reader Char := do
  match ← head with
  | none => .fail .truncated
  | some c =>
    drop
    if c = 'u' then unicode
    else
      match shortEscape? c with
      | none => .fail .malformed
      | some d => return d

/-- One character of a string, or the closing quote. -/
def readChar (unicode : Reader Char) : Reader (List Char × Bool) := do
  match ← head with
  | none => .fail .truncated
  | some c =>
    drop
    if c = '\x22' then return ([], false)
    else if c = '\\' then return ([← readEscape unicode], true)
    else if c.toNat < 32 then .fail .malformed
    else return ([c], true)

/-- The characters of a string after its opening quote, to the closing one. -/
def readChars (unicode : Reader Char) : Reader (List Char) :=
  Text.Reader.collect (readChar unicode)

/-- The string whose opening quote has been taken. -/
def stringBody : Reader String := do
  let cs ← readChars readUnicode
  return String.ofList cs

/-- Reads over a string whose opening quote has been taken; half a pair of escapes will do. -/
def skipStringBody : Reader Unit := do
  let _ ← readChars do
    let _ ← readHex
    return ' '
  return ()

/-- A numeral as it is written. -/
structure Numeral where
  negative : Bool
  whole : List Char
  /-- The digits after the point, where there is one. -/
  places : Option (List Char)
  /-- Whether the exponent is negative, and its digits. -/
  exponent : Option (Bool × List Char)

/-- At least one digit; `short` is what a text is that ends instead. -/
def someDigits (short : ReadError) : Reader (List Char) := do
  let digits ← Text.Reader.takeWhile Char.isDigit
  if digits.isEmpty then
    if (← Text.Reader.head) = none then .fail short else .fail .malformed
  else return digits

/-- A numeral. No zero stands before another digit of the whole part. -/
def readNumeral (short : ReadError) : Reader Numeral := do
  let negative ← accept '-'
  let whole ← someDigits short
  if whole.head? = some '0' ∧ whole.length ≠ 1 then .fail .malformed
  let places ← if ← accept '.' then some <$> someDigits short else pure none
  let hasExponent ← do if ← accept 'e' then pure true else accept 'E'
  let exponent ← if hasExponent then
      let negative ← accept '-'
      let _ ← if negative then pure false else accept '+'
      let digits ← someDigits short
      pure (some (negative, digits))
    else pure none
  return ⟨negative, whole, places, exponent⟩

/-- Appends digits to a number as long as it stays below 2 ^ 64; the others are left over. -/
def gather (n : Nat) : List Char → Nat × List Char
  | [] => (n, [])
  | d :: ds =>
    let m := 10 * n + (d.toNat - 48)
    if m < Nat.pow 2 64 then gather m ds else (n, d :: ds)

def digitsValue (ds : List Char) : Nat := ds.foldl (fun n d => 10 * n + (d.toNat - 48)) 0

/-- A number times a power of ten; small ones are reached in steps of 308 places. -/
def timesPowerOfTen (x : Binary64) (e : Int) : Option Binary64 :=
  if x.mantissa = 0 then some x
  else if 308 < e then none
  else if e < -308 then do
    let y ← Binary64.ofQuotient? (Nat.pow 10 308) 1
    let x ← x.div? y
    timesPowerOfTen x (e + 308)
  else do
    let y ← Binary64.ofQuotient? (Nat.pow 10 e.natAbs) 1
    if 0 ≤ e then x.mul? y else x.div? y
termination_by (-e).toNat

namespace Numeral

def isWhole (n : Numeral) : Bool := n.places.isNone && n.exponent.isNone

/-- The number that a numeral stands for, unless it is too large. A whole one within 64 bits is
taken as it is; of any other the digits that fit 64 bits count. -/
def value? (n : Numeral) : Option Number :=
  let (m, dropped) := gather 0 n.whole
  let bound := if n.negative then Nat.pow 2 63 + 1 else Nat.pow 2 64
  if n.isWhole ∧ dropped = [] ∧ m < bound ∧ (n.negative → m ≠ 0) then
    some (.integer (if n.negative then -(Int.ofNat m) else Int.ofNat m))
  else
    let places := n.places.getD []
    let (m, left) := gather m places
    let shift : Int := Int.ofNat dropped.length - Int.ofNat (places.length - left.length)
    let written : Int :=
      match n.exponent with
      | none => 0
      | some (negative, ds) =>
        if negative then -(Int.ofNat (digitsValue ds)) else Int.ofNat (digitsValue ds)
    (do timesPowerOfTen (← Binary64.ofQuotient? m 1) (shift + written)).map (.float n.negative)

end Numeral

def readNumber : Reader Number := do
  let numeral ← readNumeral .truncated
  match numeral.value? with
  | some n => return n
  | none => .fail .malformed

/-- What a message calls the value that comes next. -/
def found : Reader String := do
  let c ← peek
  if c = some 'n' then
    literal ['n', 'u', 'l', 'l']
    return Value.null.describe
  else if c = some 't' then
    literal ['t', 'r', 'u', 'e']
    return describeBool true
  else if c = some 'f' then
    literal ['f', 'a', 'l', 's', 'e']
    return describeBool false
  else if c = some '\x22' then
    drop
    let s ← stringBody
    return describeString s
  else if c = some '[' then return (Value.array []).describe
  else if c = some '\x7b' then return (Value.object []).describe
  else if c = some '-' ∨ c.any Char.isDigit then
    let n ← readNumber
    return n.describe
  else .fail (unexpected c)

/-- Fails because the value that comes next is not what is wanted. -/
def mismatch {α : Type} (expected : String) : Reader α := do
  let f ← found
  .fail (.mismatch f expected)

/-- What has been opened and not yet closed. -/
inductive Bracket where
  | array
  | object
deriving DecidableEq, Repr

def Bracket.closing : Bracket → Char
  | array => ']'
  | object => '\x7d'

/-- Reads over the name of an object's member and the colon after it. -/
def skipName : Bracket → Reader Unit
  | .array => pure ()
  | .object => do
    expect '\x22'
    skipStringBody
    expect ':'

/-- Reads over a string, a number or a word that begins with `c`. -/
def skipAtom (c : Char) : Reader Unit :=
  if c = '\x22' then do
    drop
    skipStringBody
  else if c = 'n' then literal ['n', 'u', 'l', 'l']
  else if c = 't' then literal ['t', 'r', 'u', 'e']
  else if c = 'f' then literal ['f', 'a', 'l', 's', 'e']
  else if c = '-' ∨ c.isDigit then do
    let _ ← readNumeral .malformed
    return ()
  else .fail .malformed

def bracket? (c : Char) : Option Bracket :=
  if c = '[' then some .array else if c = '\x7b' then some .object else none

/-- One step to the end of all that is open, from right before a value or from right after one. -/
def skipStep : Bool × List Bracket → Reader ((Bool × List Bracket) × Bool)
  | (false, []) => return ((false, []), false)
  | (false, b :: bs) => do
    let c ← peek
    if c = some b.closing then
      drop
      return ((false, bs), true)
    else if c = some ',' then
      drop
      skipName b
      return ((true, b :: bs), true)
    else .fail (unexpected c)
  | (true, opened) => do
    match ← peek with
    | none => .fail .truncated
    | some c =>
      match bracket? c with
      | none =>
        skipAtom c
        return ((false, opened), true)
      | some b =>
        drop
        match ← peek with
        | none => .fail .truncated
        | some d =>
          if d = b.closing then
            drop
            return ((false, opened), true)
          else
            skipName b
            return ((true, b :: opened), true)

/-- Reads over a value of whatever kind. -/
def skipValue : Reader Unit := do
  let _ ← Text.Reader.iterate skipStep (true, [])
  return ()

end SavedState.Json
