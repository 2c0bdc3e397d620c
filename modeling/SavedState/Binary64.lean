/-!
Finite binary numbers with 53 significant bits: the nearest one to a quotient, and the shortest
decimal that is nearer to a number than to any other.
-/

namespace SavedState

/-- The number `mantissa * 2 ^ exponent`. -/
structure Binary64 where
  mantissa : Nat
  exponent : Int
deriving DecidableEq, Repr

namespace Binary64

def zero : Binary64 := ⟨0, -1074⟩

/-- The nearest whole number to a quotient; a half goes to the even neighbour. -/
def roundDiv (num den : Nat) : Nat :=
  let q := num / den
  let r := num % den
  if 2 * r < den then q
  else if den < 2 * r then q + 1
  else q + q % 2

/-- The quotient `num / den / 2 ^ q` as a pair of whole numbers. -/
def scaled (num den : Nat) (q : Int) : Nat × Nat :=
  (num * Nat.pow 2 (-q).toNat, den * Nat.pow 2 q.toNat)

/-- The largest `k` with `2 ^ k ≤ num / den`, where both are positive. -/
def floorLog (num den : Nat) : Int :=
  let k : Int := Int.ofNat num.log2 - Int.ofNat den.log2
  let (n, d) := scaled num den k
  if d ≤ n then k else k - 1

/-- The nearest number to `num / den`, unless that is too large. -/
def ofQuotient? (num den : Nat) : Option Binary64 :=
  if num = 0 then some zero
  else
    let k := floorLog num den - 52
    let q := if k < -1074 then -1074 else k
    let (n, d) := scaled num den q
    let m := roundDiv n d
    let (m, q) := if m = Nat.pow 2 53 then (Nat.pow 2 52, q + 1) else (m, q)
    if 971 < q then none else some ⟨m, q⟩

def num (x : Binary64) : Nat := x.mantissa * Nat.pow 2 x.exponent.toNat

def den (x : Binary64) : Nat := Nat.pow 2 (-x.exponent).toNat

def mul? (x y : Binary64) : Option Binary64 := ofQuotient? (x.num * y.num) (x.den * y.den)

def div? (x y : Binary64) : Option Binary64 := ofQuotient? (x.num * y.den) (x.den * y.num)

/-- The ends of the interval of the quotients that are nearest to `x`, over a common denominator. -/
def ends (x : Binary64) : (Nat × Nat) × Nat :=
  let below := if x.mantissa = Nat.pow 2 52 ∧ -1074 < x.exponent then 1 else 2
  let unit := Nat.pow 2 x.exponent.toNat
  (((4 * x.mantissa - below) * unit, (4 * x.mantissa + 2) * unit), 4 * x.den)

/-- Whether the decimal `digits * 10 ^ p` reads back as `x`. -/
def reads (x : Binary64) (digits : Nat) (p : Int) : Bool :=
  let ((lo, hi), d) := x.ends
  let n := digits * Nat.pow 10 p.toNat * d
  let e := Nat.pow 10 (-p).toNat
  if x.mantissa % 2 = 0 then lo * e ≤ n && n ≤ hi * e else lo * e < n && n < hi * e

/-- The multiple of `10 ^ p` that is nearest to `x`, of those next to `x` that read back as it. From
the middle between two it is the even one. -/
def onGrid? (x : Binary64) (p : Int) : Option Nat :=
  let n := x.num * Nat.pow 10 (-p).toNat
  let d := x.den * Nat.pow 10 p.toNat
  let c := n / d
  let below := c != 0 && x.reads c p
  let above := x.reads (c + 1) p
  if below && above then some (roundDiv n d)
  else if below then some c
  else if above then some (c + 1)
  else none

/-- The coarsest decimal grid with a point that reads back as `x`, and that point. -/
def shortest (x : Binary64) : Nat × Int :=
  let grids := (List.range 660).map fun i => (310 : Int) - Int.ofNat i
  (grids.findSome? fun p => (x.onGrid? p).map (·, p)).getD (0, 0)

/-- Digits times a power of ten, without an exponent and with at least one place. -/
def positional (digits : List Char) (p : Int) : List Char :=
  if 0 ≤ p then digits ++ List.replicate p.toNat '0' ++ ['.', '0']
  else
    let places := (-p).toNat
    let padded := List.replicate (places + 1 - digits.length) '0' ++ digits
    padded.take (padded.length - places) ++ '.' :: padded.drop (padded.length - places)

/-- The power of ten that the first of some digits counts, where the last counts `p`. -/
def leading (digits : List Char) (p : Int) : Int := p + Int.ofNat digits.length - 1

/-- Digits with a point after the first, if there are more, and the power of ten of the first. -/
def scientific (digits : List Char) (p : Int) : List Char :=
  let e := leading digits p
  let places := digits.drop 1
  digits.take 1 ++ (if places.isEmpty then [] else '.' :: places) ++
    'e' :: (if e < 0 then '-' else '+') :: e.natAbs.repr.toList

/-- The shortest decimal. It has no exponent as long as its first digit is within sixteen before
the point or five after it. -/
def render (x : Binary64) : String :=
  if x.mantissa = 0 then "0.0"
  else
    let (n, p) := x.shortest
    let digits := n.repr.toList
    let e := leading digits p
    String.ofList (if -5 ≤ e ∧ e ≤ 15 then positional digits p else scientific digits p)

end Binary64

end SavedState
