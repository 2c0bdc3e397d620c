/-!
Hexadecimal numerals.
-/

namespace SavedState.Text

/-- A digit below sixteen, as a lower-case numeral. -/
def hexChar (n : Nat) : Char := if n < 10 then Char.ofNat (48 + n) else Char.ofNat (87 + n)

def hexValue? (c : Char) : Option Nat :=
  let n := c.toNat
  if 48 ≤ n ∧ n ≤ 57 then some (n - 48)
  else if 97 ≤ n ∧ n ≤ 102 then some (n - 87)
  else if 65 ≤ n ∧ n ≤ 70 then some (n - 55)
  else none

/-- The number that hexadecimal digits stand for, the most significant first. -/
def ofHex? (digits : List Char) : Option Nat :=
  digits.foldlM (fun n c => (hexValue? c).map (16 * n + ·)) 0

/-- A number in as few digits as it takes. -/
def toHex (n : Nat) : List Char :=
  if n < 16 then [hexChar n] else toHex (n / 16) ++ [hexChar (n % 16)]

end SavedState.Text
