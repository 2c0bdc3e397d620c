import SavedState.Proofs.PlainManifests

/-!
The grammar of JSON text.

A value is written as a tree of words, numerals, strings, items and members, and the tree says in
which order its tokens come. Blanks may stand in front of every token. Half a pair of escapes is
written like any other letter, but the string it stands in has no characters.
-/

namespace SavedState.Json

/-! ### Strings -/

/-- The escapes of one letter, with what they stand for. -/
def shortEscapes : List (Char × Char) :=
  [('\x22', '\x22'), ('\\', '\\'), ('/', '/'), ('b', '\x08'), ('f', '\x0c'), ('n', '\n'),
    ('r', '\r'), ('t', '\t')]

/-- The hexadecimal digits and their values. -/
def hexDigits : List (Char × Nat) :=
  [('0', 0), ('1', 1), ('2', 2), ('3', 3), ('4', 4), ('5', 5), ('6', 6), ('7', 7), ('8', 8),
    ('9', 9), ('a', 10), ('b', 11), ('c', 12), ('d', 13), ('e', 14), ('f', 15), ('A', 10),
    ('B', 11), ('C', 12), ('D', 13), ('E', 14), ('F', 15)]

abbrev HexDigit := { d : Char × Nat // d ∈ hexDigits }

def digitText (ds : List HexDigit) : List Char := ds.map (·.1.1)

def codeUnit (ds : List HexDigit) : Nat := ds.foldl (fun n d => 16 * n + d.1.2) 0

/-- What stands between quotes: characters that stand for themselves, escapes of one letter, and
code units of four digits. -/
inductive Letter where
  | plain (c : Char) (h : c ≠ '\x22' ∧ c ≠ '\\' ∧ 32 ≤ c.toNat)
  | short (c d : Char) (h : (c, d) ∈ shortEscapes)
  | code (digits : List HexDigit) (h : digits.length = 4)

def Letter.text : Letter → List Char
  | plain c _ => [c]
  | short c _ _ => ['\\', c]
  | code digits _ => '\\' :: 'u' :: digitText digits

abbrev IsFirstHalf (n : Nat) : Prop := 0xD800 ≤ n ∧ n < 0xDC00

abbrev IsSecondHalf (n : Nat) : Prop := 0xDC00 ≤ n ∧ n < 0xE000

/-- The character beyond 0xFFFF that two halves stand for. -/
def paired (high low : Nat) : Char :=
  Char.ofNat (0x10000 + (high - 0xD800) * 0x400 + (low - 0xDC00))

/-- The characters that letters stand for. Two code units that are the halves of a pair stand for
one character, and there is none for a half without the other. -/
def decode : List Letter → Option (List Char)
  | [] => some []
  | .plain c _ :: ls => (c :: ·) <$> decode ls
  | .short _ d _ :: ls => (d :: ·) <$> decode ls
  | .code high _ :: ls =>
    if IsSecondHalf (codeUnit high) then none
    else if IsFirstHalf (codeUnit high) then
      match ls with
      | .code low _ :: ls =>
        if IsSecondHalf (codeUnit low) then
          (paired (codeUnit high) (codeUnit low) :: ·) <$> decode ls
        else none
      | _ => none
    else (Char.ofNat (codeUnit high) :: ·) <$> decode ls

/-- The string that letters stand for. -/
def decodeString (ls : List Letter) : Option String := String.ofList <$> decode ls

/-- What is written behind the opening quote of a string. -/
def letterText (ls : List Letter) : List Char := ls.flatMap Letter.text ++ ['\x22']

/-! ### Numerals -/

def IsDigits (ds : List Char) : Prop := ds ≠ [] ∧ ∀ d ∈ ds, d.isDigit = true

/-- No zero stands in front of other digits. -/
def IsWhole (ds : List Char) : Prop := IsDigits ds ∧ (ds.head? = some '0' → ds = ['0'])

/-- `('.' digits)?` -/
def IsPlaces (s : List Char) : Prop := s = [] ∨ ∃ ds, IsDigits ds ∧ s = '.' :: ds

/-- `(('e' | 'E') ('+' | '-')? digits)?` -/
def IsExponent (s : List Char) : Prop :=
  s = [] ∨ ∃ e sign ds, e ∈ ['e', 'E'] ∧ sign ∈ [[], ['+'], ['-']] ∧ IsDigits ds ∧
    s = e :: (sign ++ ds)

/-- `'-'? whole places exponent` -/
def IsNumeral (s : List Char) : Prop :=
  ∃ sign whole places exponent, sign ∈ [[], ['-']] ∧ IsWhole whole ∧ IsPlaces places ∧
    IsExponent exponent ∧ s = sign ++ (whole ++ (places ++ exponent))

/-! ### Values -/

/-- A value as it is written. -/
inductive Source where
  | null
  | bool (value : Bool)
  | numeral (n : { s : List Char // IsNumeral s })
  | string (letters : List Letter)
  | array (items : List Source)
  | object (members : List (List Letter × Source))

def stringToken (ls : List Letter) : List Char := '\x22' :: letterText ls

mutual

def Source.tokens : Source → List (List Char)
  | .null => [['n', 'u', 'l', 'l']]
  | .bool true => [['t', 'r', 'u', 'e']]
  | .bool false => [['f', 'a', 'l', 's', 'e']]
  | .numeral n => [n.1]
  | .string ls => [stringToken ls]
  | .array items => ['['] :: itemTokens items
  | .object members => ['\x7b'] :: memberTokens members

/-- `(value (',' value)*)? ']'` -/
def itemTokens : List Source → List (List Char)
  | [] => [[']']]
  | v :: vs => v.tokens ++ moreItemTokens vs

/-- `(',' value)* ']'` -/
def moreItemTokens : List Source → List (List Char)
  | [] => [[']']]
  | v :: vs => [','] :: (v.tokens ++ moreItemTokens vs)

/-- `(string ':' value (',' string ':' value)*)?` and the bracket that closes -/
def memberTokens : List (List Letter × Source) → List (List Char)
  | [] => [['\x7d']]
  | (name, v) :: ms => stringToken name :: [':'] :: (v.tokens ++ moreMemberTokens ms)

/-- `(',' string ':' value)*` and the bracket that closes -/
def moreMemberTokens : List (List Letter × Source) → List (List Char)
  | [] => [['\x7d']]
  | (name, v) :: ms => [','] :: stringToken name :: [':'] :: (v.tokens ++ moreMemberTokens ms)

end

/-! ### Tokens in a text -/

/-- A text begins with the tokens, blanks in front of each, and `r` is left of it. -/
def Spells : List (List Char) → List Char → List Char → Prop
  | [], s, r => s = r
  | t :: ts, s, r => ∃ blanks q, IsSpacing blanks ∧ s = blanks ++ (t ++ q) ∧ Spells ts q r

/-- A text that is the value, with blanks wherever they may stand. -/
def Source.IsText (v : Source) (text : String) : Prop :=
  ∃ blanks, IsSpacing blanks ∧ Spells v.tokens text.toList blanks

variable {ts us : List (List Char)} {t s r : List Char}

lemma spells_append : Spells (ts ++ us) s r ↔ ∃ q, Spells ts s q ∧ Spells us q r := by
  induction ts generalizing s with
  | nil =>
    constructor
    · exact fun h => ⟨s, rfl, h⟩
    · rintro ⟨q, rfl, h⟩
      exact h
  | cons t ts ih =>
    constructor
    · rintro ⟨blanks, q, hb, hs, h⟩
      obtain ⟨q', hq, hq'⟩ := ih.1 h
      exact ⟨q', ⟨blanks, q, hb, hs, hq⟩, hq'⟩
    · rintro ⟨q', ⟨blanks, q, hb, hs, hq⟩, hq'⟩
      exact ⟨blanks, q, hb, hs, ih.2 ⟨q', hq, hq'⟩⟩

lemma Spells.length_le (h : Spells ts s r) : r.length ≤ s.length := by
  induction ts generalizing s with
  | nil => exact Nat.le_of_eq (congrArg List.length h.symm)
  | cons t ts ih =>
    obtain ⟨blanks, q, -, rfl, h⟩ := h
    have := ih h
    simp only [List.length_append]
    omega

lemma Spells.length_lt {c : Char} (h : Spells ((c :: t) :: ts) s r) : r.length < s.length := by
  obtain ⟨blanks, q, -, rfl, h⟩ := h
  have := h.length_le
  simp only [List.length_append, List.length_cons]
  omega

/-- Tokens begin behind any blanks with the first character of the first one. -/
lemma Spells.exists_blanks {c : Char} (h : Spells ((c :: t) :: ts) s r) : ∃ blanks q,
    IsSpacing blanks ∧ s = blanks ++ c :: q ∧ Spells ((c :: t) :: ts) (c :: q) r := by
  obtain ⟨blanks, q, hb, hs, h⟩ := h
  exact ⟨blanks, t ++ q, hb, hs, [], q, isSpacing_nil, rfl, h⟩

lemma spells_singleton : Spells [t] s r ↔ ∃ blanks, IsSpacing blanks ∧ s = blanks ++ (t ++ r) := by
  constructor
  · rintro ⟨blanks, q, hb, hs, rfl⟩
    exact ⟨blanks, hb, hs⟩
  · rintro ⟨blanks, hb, hs⟩
    exact ⟨blanks, r, hb, hs, rfl⟩

/-- A member of an object, in front of other tokens. -/
lemma spells_member {name : List Letter} {v : Source} :
    Spells (stringToken name :: [':'] :: (v.tokens ++ ts)) s r ↔
      ∃ q, Spells (stringToken name :: [':'] :: v.tokens) s q ∧ Spells ts q r := by
  rw [← List.cons_append, ← List.cons_append]
  exact spells_append

/-! ### Where a value begins -/

/-- The first character of a value. -/
def Source.opening : Source → Char
  | .null => 'n'
  | .bool true => 't'
  | .bool false => 'f'
  | .numeral n => n.1.headD '0'
  | .string _ => '\x22'
  | .array _ => '['
  | .object _ => '\x7b'

def OpensNumeral (c : Char) : Prop := c = '-' ∨ c.isDigit = true

lemma OpensNumeral.ne {c d : Char} (h : OpensNumeral c) (hminus : d ≠ '-')
    (hdigit : d.isDigit = false) : c ≠ d := by
  rintro rfl
  obtain rfl | h := h
  · exact hminus rfl
  · exact Bool.false_ne_true (hdigit.symm.trans h)

lemma OpensNumeral.isBlank {c : Char} (h : OpensNumeral c) : isBlank c = false := by
  have hne := fun d => h.ne (d := d)
  simp [Json.isBlank, hne ' ' (by decide) (by decide), hne '\n' (by decide) (by decide),
    hne '\t' (by decide) (by decide), hne '\r' (by decide) (by decide)]

lemma IsNumeral.exists_opening (h : IsNumeral s) : ∃ c t, s = c :: t ∧ OpensNumeral c := by
  obtain ⟨sign, whole, places, exponent, hsign, ⟨⟨hne, hdigits⟩, -⟩, -, -, rfl⟩ := h
  obtain ⟨d, ds, rfl⟩ := List.exists_cons_of_ne_nil hne
  simp only [List.mem_cons, List.not_mem_nil, or_false] at hsign
  obtain rfl | rfl := hsign
  · exact ⟨d, _, rfl, .inr (hdigits d List.mem_cons_self)⟩
  · exact ⟨'-', _, rfl, .inl rfl⟩

lemma Source.tokens_eq (v : Source) : ∃ t ts, v.tokens = (v.opening :: t) :: ts := by
  cases v with
  | null => exact ⟨_, _, rfl⟩
  | bool value => cases value <;> exact ⟨_, _, rfl⟩
  | numeral n =>
    obtain ⟨s, hs⟩ := n
    obtain ⟨c, t, rfl, -⟩ := hs.exists_opening
    exact ⟨t, [], rfl⟩
  | string ls => exact ⟨_, _, rfl⟩
  | array items => exact ⟨_, _, rfl⟩
  | object members => exact ⟨_, _, rfl⟩

/-- A value begins behind any blanks with its first character. -/
lemma Source.exists_blanks {v : Source} (h : Spells (v.tokens ++ ts) s r) : ∃ blanks q,
    IsSpacing blanks ∧ s = blanks ++ v.opening :: q ∧
      Spells (v.tokens ++ ts) (v.opening :: q) r := by
  obtain ⟨t, us, htokens⟩ := v.tokens_eq
  rw [htokens] at h ⊢
  exact Spells.exists_blanks h

namespace Source

lemma opensNumeral (n : { s : List Char // IsNumeral s }) : OpensNumeral (numeral n).opening := by
  obtain ⟨s, hs⟩ := n
  obtain ⟨c, t, rfl, hc⟩ := hs.exists_opening
  exact hc

variable (v : Source)

lemma isBlank_opening : isBlank v.opening = false := by
  cases v with
  | numeral n => exact (opensNumeral n).isBlank
  | bool value => cases value <;> rfl
  | _ => rfl

lemma opening_ne_close : v.opening ≠ ']' := by
  cases v with
  | numeral n => exact (opensNumeral n).ne (by decide) (by decide)
  | bool value => cases value <;> simp [opening]
  | _ => simp [opening]

variable {v}

/-- Only a string begins with a quote. -/
lemma eq_string_of_opening (h : v.opening = '\x22') : ∃ ls, v = string ls := by
  cases v with
  | string ls => exact ⟨ls, rfl⟩
  | numeral n => exact absurd h ((opensNumeral n).ne (by decide) (by decide))
  | bool value => cases value <;> simp [opening] at h
  | _ => simp [opening] at h

lemma eq_object_of_opening (h : v.opening = '\x7b') : ∃ ms, v = object ms := by
  cases v with
  | object ms => exact ⟨ms, rfl⟩
  | numeral n => exact absurd h ((opensNumeral n).ne (by decide) (by decide))
  | bool value => cases value <;> simp [opening] at h
  | _ => simp [opening] at h

lemma eq_null_of_opening (h : v.opening = 'n') : v = null := by
  cases v with
  | null => rfl
  | numeral n => exact absurd h ((opensNumeral n).ne (by decide) (by decide))
  | bool value => cases value <;> simp [opening] at h
  | _ => simp [opening] at h

end Source

end SavedState.Json
