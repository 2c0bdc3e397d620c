import SavedState.Proofs.JsonGrammar
import SavedState.Proofs.TypeGrammar
import SavedState.Proofs.WrittenStrings

/-!
Values that nobody asks for.

Whatever a value is, however deep its arrays and objects go, reading over it takes the value and
nothing else. What has been opened is kept on a stack: a value is one leg of the way, and the way
from behind an item to the bracket that closes is another.
-/

namespace SavedState

/-! ### Characters and digits -/

namespace Text.Reader

variable {ε : Type} {s r : List Char} {c : Char}

lemma takes_accept (c : Char) (s : List Char) :
    (accept c : Reader ε Bool).Takes (c :: s) true s := by
  refine (takes_head _).bind ?_
  rw [if_pos (List.head?_cons : (c :: s).head? = some c)]
  exact (takes_drop c s).bind (takes_pure _ s)

lemma takes_accept_not (h : ∀ d ∈ s.head?, d ≠ c) :
    (accept c : Reader ε Bool).Takes s false s := by
  refine (takes_head s).bind ?_
  rw [if_neg fun hs : s.head? = some c => h c hs rfl]
  exact takes_pure _ s

lemma takes_takeWhile {p : Char → Bool} {cs : List Char} (h : ∀ c ∈ cs, p c = true)
    (hr : ∀ c ∈ r.head?, p c = false) :
    (takeWhile p : Reader ε (List Char)).Takes (cs ++ r) cs r := by
  obtain ⟨htake, hdrop⟩ := Text.takeWhile_append_of_ends h hr
  refine ⟨List.suffix_append cs r, ?_⟩
  unfold takeWhile
  simp only [htake, hdrop]

end Text.Reader

namespace Json

open Text.Reader

variable {α : Type} {s t r q blanks : List Char} {c : Char} {short : ReadError}

lemma takes_literal (cs r : List Char) : (literal cs).Takes (cs ++ r) () r := by
  induction cs with
  | nil => exact takes_pure () r
  | cons c cs ih =>
    rw [List.cons_append]
    refine (takes_head _).bind ?_
    rw [if_pos (List.head?_cons : (c :: (cs ++ r)).head? = some c)]
    exact (takes_drop c _).bind ih

lemma takes_someDigits {ds : List Char} (h : IsDigits ds) (hr : ∀ c ∈ r.head?, c.isDigit = false) :
    (someDigits short).Takes (ds ++ r) ds r := by
  refine (takes_takeWhile h.2 hr).bind ?_
  rw [if_neg (by simpa using h.1)]
  exact takes_pure ds r

/-! ### Numerals -/

/-- Where a numeral cannot go on. -/
def EndsNumeral (s : List Char) : Prop :=
  ∀ c ∈ s.head?, c.isDigit = false ∧ c ≠ '.' ∧ c ≠ 'e' ∧ c ≠ 'E'

/-- The places of a numeral, if there are any, and what comes after them. -/
def withPlaces (short : ReadError) (f : Option (List Char) → Reader α) : Reader α := do
  let places ← if ← accept '.' then some <$> someDigits short else pure none
  f places

/-- The exponent of a numeral, if there is one, and what is made of it. -/
def withExponent (short : ReadError) (f : Option (Bool × List Char) → α) : Reader α := do
  let hasExponent ← do if ← accept 'e' then pure true else accept 'E'
  let exponent ← if hasExponent then
      let negative ← accept '-'
      let _ ← if negative then pure false else accept '+'
      let digits ← someDigits short
      pure (some (negative, digits))
    else pure none
  return f exponent

lemma readNumeral_eq (short : ReadError) : readNumeral short = (do
    let negative ← accept '-'
    let whole ← someDigits short
    if whole.head? = some '0' ∧ whole.length ≠ 1 then .fail .malformed
    withPlaces short fun places => withExponent short fun exponent =>
      ⟨negative, whole, places, exponent⟩) := rfl

lemma IsDigits.head_isDigit {ds : List Char} (h : IsDigits ds) (s : List Char) :
    ∀ c ∈ (ds ++ s).head?, c.isDigit = true := by
  obtain ⟨d, ds, rfl⟩ := List.exists_cons_of_ne_nil h.1
  rintro c ⟨⟩
  exact h.2 d List.mem_cons_self

lemma takes_accept_not_digit (hc : c.isDigit = false) (hs : ∀ d ∈ s.head?, d.isDigit = true) :
    (accept c : Reader Bool).Takes s false s := by
  refine takes_accept_not fun d hd => ?_
  rintro rfl
  exact Bool.false_ne_true (hc.symm.trans (hs d hd))

/-- The sign of an exponent, in front of its digits. -/
lemma takes_exponentSign {sign : List Char} {f : Bool → Reader α} (h : sign ∈ [[], ['+'], ['-']])
    (hs : ∀ d ∈ s.head?, d.isDigit = true) (hf : ∀ negative, ∃ a, (f negative).Takes s a r) :
    ∃ a, Takes (do
      let negative ← accept '-'
      let _ ← if negative then pure false else accept '+'
      f negative) (sign ++ s) a r := by
  simp only [List.mem_cons, List.not_mem_nil, or_false] at h
  obtain rfl | rfl | rfl := h
  · obtain ⟨a, ha⟩ := hf false
    exact ⟨a, (takes_accept_not_digit (by decide) hs).bind
      ((takes_accept_not_digit (by decide) hs).bind ha)⟩
  · obtain ⟨a, ha⟩ := hf false
    exact ⟨a, (takes_accept_not (by rintro c ⟨⟩; decide)).bind ((takes_accept '+' s).bind ha)⟩
  · obtain ⟨a, ha⟩ := hf true
    exact ⟨a, (takes_accept '-' s).bind ((takes_pure false s).bind ha)⟩

lemma takes_withExponent (short : ReadError) {exponent : List Char} (h : IsExponent exponent)
    (hends : EndsNumeral r) (f : Option (Bool × List Char) → α) :
    ∃ a, (withExponent short f).Takes (exponent ++ r) a r := by
  obtain rfl | ⟨e, sign, ds, he, hsign, hds, rfl⟩ := h
  · exact ⟨f none, (takes_accept_not fun c hc => (hends c hc).2.2.1).bind
      ((takes_accept_not fun c hc => (hends c hc).2.2.2).bind (takes_pure _ r))⟩
  · rw [List.cons_append, List.append_assoc]
    obtain ⟨a, ha⟩ := takes_exponentSign (f := fun negative => do
      let digits ← someDigits short
      let exponent ← pure (some (negative, digits))
      return f exponent) hsign (hds.head_isDigit r) fun negative =>
        ⟨_, (takes_someDigits hds fun c hc => (hends c hc).1).bind (takes_pure _ r)⟩
    simp only [List.mem_cons, List.not_mem_nil, or_false] at he
    obtain rfl | rfl := he
    · exact ⟨a, (takes_accept 'e' _).bind ((takes_pure true _).bind ha)⟩
    · exact ⟨a, (takes_accept_not (by rintro c ⟨⟩; decide)).bind ((takes_accept 'E' _).bind ha)⟩

lemma IsExponent.head_ne {exponent : List Char} (h : IsExponent exponent) (hends : EndsNumeral r) :
    ∀ c ∈ (exponent ++ r).head?, c.isDigit = false ∧ c ≠ '.' := by
  obtain rfl | ⟨e, sign, ds, he, -, -, rfl⟩ := h
  · exact fun c hc => ⟨(hends c hc).1, (hends c hc).2.1⟩
  · simp only [List.mem_cons, List.not_mem_nil, or_false] at he
    obtain rfl | rfl := he <;> rintro c ⟨⟩ <;> decide

lemma IsPlaces.head_ne {places exponent : List Char} (h : IsPlaces places)
    (hexponent : IsExponent exponent) (hends : EndsNumeral r) :
    ∀ c ∈ (places ++ (exponent ++ r)).head?, c.isDigit = false := by
  obtain rfl | ⟨ds, -, rfl⟩ := h
  · exact fun c hc => (hexponent.head_ne hends c hc).1
  · rintro c ⟨⟩
    decide

lemma takes_withPlaces {places : List Char} {f : Option (List Char) → Reader α}
    (h : IsPlaces places) (hs : ∀ c ∈ s.head?, c.isDigit = false ∧ c ≠ '.')
    (hf : ∀ p, ∃ a, (f p).Takes s a r) : ∃ a, (withPlaces short f).Takes (places ++ s) a r := by
  obtain rfl | ⟨ds, hds, rfl⟩ := h
  · obtain ⟨a, ha⟩ := hf none
    exact ⟨a, (takes_accept_not fun c hc => (hs c hc).2).bind ((takes_pure none s).bind ha)⟩
  · obtain ⟨a, ha⟩ := hf (some ds)
    exact ⟨a, (takes_accept '.' _).bind
      (((takes_someDigits hds fun c hc => (hs c hc).1).map some).bind ha)⟩

/-- **A numeral is taken to its end.** -/
lemma takes_readNumeral (h : IsNumeral t) (hends : EndsNumeral r) (short : ReadError) :
    ∃ n, (readNumeral short).Takes (t ++ r) n r := by
  obtain ⟨sign, whole, places, exponent, hsign, ⟨hwhole, hzero⟩, hplaces, hexponent, rfl⟩ := h
  have hleading : ¬(whole.head? = some '0' ∧ whole.length ≠ 1) := by
    rintro ⟨hhead, hlength⟩
    rw [hzero hhead] at hlength
    exact hlength rfl
  have hrest : ∀ negative, ∃ n, Takes (do
      let whole ← someDigits short
      if whole.head? = some '0' ∧ whole.length ≠ 1 then .fail .malformed
      withPlaces short fun places => withExponent short fun exponent =>
        (⟨negative, whole, places, exponent⟩ : Numeral)) (whole ++ (places ++ (exponent ++ r))) n
      r := by
    intro negative
    obtain ⟨n, hn⟩ := takes_withPlaces hplaces (hexponent.head_ne hends) fun p =>
      takes_withExponent short hexponent hends fun e => (⟨negative, whole, p, e⟩ : Numeral)
    refine ⟨n, (takes_someDigits hwhole (hplaces.head_ne hexponent hends)).bind ?_⟩
    rw [if_neg hleading]
    exact hn
  simp only [List.append_assoc, readNumeral_eq]
  simp only [List.mem_cons, List.not_mem_nil, or_false] at hsign
  obtain rfl | rfl := hsign
  · obtain ⟨n, hn⟩ := hrest false
    exact ⟨n, (takes_accept_not_digit (by decide) (hwhole.head_isDigit _)).bind hn⟩
  · obtain ⟨n, hn⟩ := hrest true
    exact ⟨n, (takes_accept '-' _).bind hn⟩

/-! ### Strings -/

/-- Every escape of one letter is known. -/
lemma takes_readEscape_of_mem {c d : Char} (h : (c, d) ∈ shortEscapes) (unicode : Reader Char)
    (r : List Char) : (readEscape unicode).Takes (c :: r) d r := by
  have hall : ∀ e ∈ shortEscapes, e.1 ≠ 'u' ∧ shortEscape? e.1 = some e.2 := by decide
  exact takes_readEscape_short (hall _ h).1 (hall _ h).2 r

lemma ofHex?_digitText (ds : List HexDigit) : Text.ofHex? (digitText ds) = some (codeUnit ds) := by
  have hall : ∀ d ∈ hexDigits, Text.hexValue? d.1 = some d.2 := by decide
  unfold Text.ofHex? codeUnit
  generalize 0 = m
  induction ds generalizing m with
  | nil => rfl
  | cons d ds ih =>
    rw [digitText, List.map_cons, List.foldlM_cons, hall d.1 d.2]
    exact ih _

lemma takes_readHex_digits {ds : List HexDigit} (h : ds.length = 4) (r : List Char) :
    readHex.Takes (digitText ds ++ r) (codeUnit ds) r :=
  takes_readHex ((List.length_map _).trans h) (ofHex?_digitText ds) r

lemma Letter.text_ne_nil (l : Letter) : l.text ≠ [] := by
  cases l <;> exact List.cons_ne_nil _ _

/-- What a letter is taken for by one who does not ask: no code unit is looked at. -/
def Letter.skipped : Letter → Char
  | .plain c _ => c
  | .short _ d _ => d
  | .code _ _ => ' '

lemma takes_skipStringBody (ls : List Letter) (r : List Char) :
    skipStringBody.Takes (letterText ls ++ r) () r := by
  have hchars : ∀ l ∈ ls, l.text ≠ [] ∧ ∀ r, (readChar (do
      let _ ← readHex
      return ' ')).Takes (l.text ++ r) ([l.skipped], true) r := by
    intro l _
    refine ⟨l.text_ne_nil, fun r => ?_⟩
    cases l with
    | plain c h => exact takes_readChar _ h.1 h.2.1 h.2.2 r
    | short c d h => exact takes_readChar_backslash (takes_readEscape_of_mem h _ r)
    | code ds h =>
      exact takes_readChar_backslash (takes_readEscape_unicode
        ((takes_readHex_digits h r).bind (takes_pure ' ' r)))
  rw [letterText, List.append_assoc, List.singleton_append]
  exact (takes_readChars hchars r).bind (takes_pure () r)

/-! ### One step over a value -/

/-- A name and the colon after it, if the bracket is that of an object. -/
def nameTokens : Bracket → List Letter → List (List Char)
  | .array, _ => []
  | .object, ls => [stringToken ls, [':']]

lemma takes_skipName (b : Bracket) {ls : List Letter} (h : Spells (nameTokens b ls) s r) :
    (skipName b).Takes s () r := by
  cases b with
  | array =>
    cases h
    exact takes_pure () _
  | object =>
    obtain ⟨blanks, q, hb, rfl, h⟩ := h
    obtain ⟨blanks', hb', rfl⟩ := spells_singleton.1 h
    refine (takes_expect_behind hb (by decide) _).bind ?_
    exact (takes_skipStringBody ls _).bind (takes_expect_behind hb' (by decide) r)

variable {b : Bracket} {opened : List Bracket} {blanks' : List Char} {d : Char}

lemma takes_skipStep_atom (hb : IsSpacing blanks) (hc : isBlank c = false) (hno : bracket? c = none)
    (h : (skipAtom c).Takes (c :: s) () r) :
    (skipStep (true, opened)).Takes (blanks ++ c :: s) ((false, opened), true) r := by
  refine (takes_peek_behind hb hc s).bind ?_
  dsimp only
  rw [hno]
  exact h.bind (takes_pure _ r)

lemma isBlank_of_bracket? (h : bracket? d = some b) : isBlank d = false := by
  unfold bracket? at h
  split_ifs at h with harray hobject
  · rw [harray]
    rfl
  · rw [hobject]
    rfl

lemma isBlank_closing (b : Bracket) : isBlank b.closing = false := by
  cases b <;> rfl

/-- A bracket that opens, in front of something. -/
lemma takes_skipStep_open (hb : IsSpacing blanks) (hopens : bracket? d = some b)
    (hb' : IsSpacing blanks') (hc : isBlank c = false) (hne : c ≠ b.closing)
    (h : (skipName b).Takes (c :: s) () r) :
    (skipStep (true, opened)).Takes (blanks ++ d :: (blanks' ++ c :: s)) ((true, b :: opened), true)
      r := by
  refine (takes_peek_behind hb (isBlank_of_bracket? hopens) _).bind ?_
  dsimp only
  rw [hopens]
  refine (takes_drop d _).bind ((takes_peek_behind hb' hc s).bind ?_)
  dsimp only
  rw [if_neg hne]
  exact h.bind (takes_pure _ r)

/-- A bracket that opens, in front of the one that closes. -/
lemma takes_skipStep_empty (hb : IsSpacing blanks) (hopens : bracket? d = some b)
    (hb' : IsSpacing blanks') :
    (skipStep (true, opened)).Takes (blanks ++ d :: (blanks' ++ b.closing :: r))
      ((false, opened), true) r := by
  refine (takes_peek_behind hb (isBlank_of_bracket? hopens) _).bind ?_
  dsimp only
  rw [hopens]
  refine (takes_drop d _).bind ((takes_peek_behind hb' (isBlank_closing b) r).bind ?_)
  dsimp only
  rw [if_pos rfl]
  exact (takes_drop _ r).bind (takes_pure _ r)

lemma takes_skipStep_close (hb : IsSpacing blanks) :
    (skipStep (false, b :: opened)).Takes (blanks ++ b.closing :: r) ((false, opened), true) r := by
  refine (takes_peek_behind hb (isBlank_closing b) r).bind ?_
  rw [if_pos rfl]
  exact (takes_drop _ r).bind (takes_pure _ r)

lemma takes_skipStep_comma (hb : IsSpacing blanks) (h : (skipName b).Takes s () r) :
    (skipStep (false, b :: opened)).Takes (blanks ++ ',' :: s) ((true, b :: opened), true) r := by
  have hne : some ',' ≠ some b.closing := by cases b <;> decide
  refine (takes_peek_behind hb (by decide) s).bind ?_
  rw [if_neg hne, if_pos rfl]
  exact (takes_drop _ s).bind (h.bind (takes_pure _ r))

/-! ### The way over a value -/

/-- Wherever the end can be reached from the second place, it can be reached from the first. -/
def Reduces (start : Bool × List Bracket) (s : List Char) (goal : Bool × List Bracket)
    (r : List Char) : Prop :=
  ∀ q, Takes (iterate skipStep goal) r (false, []) q →
    Takes (iterate skipStep start) s (false, []) q

variable {start goal middle : Bool × List Bracket}

lemma Reduces.trans (h : Reduces start s middle q) (h' : Reduces middle q goal r) :
    Reduces start s goal r := fun p hp => h p (h' p hp)

/-- A step that takes something. -/
lemma reduces_of_step (h : (skipStep start).Takes s (goal, true) r) (hlt : r.length < s.length) :
    Reduces start s goal r := by
  intro q hq
  refine Takes.next h ?_ hq
  rintro rfl
  exact Nat.lt_irrefl _ hlt

lemma reduces_atom {c : Char} (hc : isBlank c = false) (hno : bracket? c = none)
    (h : (skipAtom c).Takes (c :: (t ++ r)) () r) (hs : Spells [c :: t] s r) :
    Reduces (true, opened) s (false, opened) r := by
  have hlt := hs.length_lt
  obtain ⟨blanks, hb, rfl⟩ := spells_singleton.1 hs
  exact reduces_of_step (takes_skipStep_atom hb hc hno h) hlt

lemma reduces_empty (hopens : bracket? d = some b) (h : Spells [[d], [b.closing]] s r) :
    Reduces (true, opened) s (false, opened) r := by
  have hlt := h.length_lt
  obtain ⟨blanks, q, hb, rfl, h⟩ := h
  obtain ⟨blanks', hb', rfl⟩ := spells_singleton.1 h
  exact reduces_of_step (takes_skipStep_empty hb hopens hb') hlt

/-- The name that comes first in an object, or else the value that comes first in an array, begins
behind any blanks with a character that does not close the bracket. -/
lemma exists_blanks_first {ls : List Letter} {v : Source} {ts : List (List Char)}
    (h : Spells (nameTokens b ls ++ (v.tokens ++ ts)) s r) : ∃ blanks c q, IsSpacing blanks ∧
      isBlank c = false ∧ c ≠ b.closing ∧ s = blanks ++ c :: q ∧
        Spells (nameTokens b ls ++ (v.tokens ++ ts)) (c :: q) r := by
  cases b with
  | array =>
    obtain ⟨blanks, q, hb, hs, h⟩ := Source.exists_blanks h
    exact ⟨blanks, v.opening, q, hb, v.isBlank_opening, v.opening_ne_close, hs, h⟩
  | object =>
    obtain ⟨blanks, q, hb, hs, h⟩ := Spells.exists_blanks h
    exact ⟨blanks, '\x22', q, hb, by decide, by decide, hs, h⟩

/-- From a bracket that opens to the first value behind it. -/
lemma reduces_open (b : Bracket) (ls : List Letter) {v : Source} {ts : List (List Char)}
    (hopens : bracket? d = some b)
    (h : Spells ([d] :: (nameTokens b ls ++ (v.tokens ++ ts))) s r) :
    ∃ q, Reduces (true, opened) s (true, b :: opened) q ∧ Spells (v.tokens ++ ts) q r := by
  obtain ⟨blanks, p, hb, rfl, h⟩ := h
  obtain ⟨blanks', c, p, hb', hc, hne, rfl, hfirst⟩ := exists_blanks_first h
  obtain ⟨q, hname, hrest⟩ := spells_append.1 hfirst
  have hskip := takes_skipName b hname
  refine ⟨q, reduces_of_step (takes_skipStep_open hb hopens hb' hc hne hskip) ?_, hrest⟩
  have := hname.length_le
  simp only [List.length_append, List.length_cons, List.length_nil] at this ⊢
  omega

/-- From behind a value to the one behind the next comma. -/
lemma reduces_comma (b : Bracket) (ls : List Letter) {ts : List (List Char)}
    (h : Spells ([','] :: (nameTokens b ls ++ ts)) s r) :
    ∃ q, Reduces (false, b :: opened) s (true, b :: opened) q ∧ Spells ts q r := by
  obtain ⟨blanks, p, hb, rfl, h⟩ := h
  obtain ⟨q, hname, h⟩ := spells_append.1 h
  refine ⟨q, reduces_of_step (takes_skipStep_comma hb (takes_skipName b hname)) ?_, h⟩
  have := hname.length_le
  simp only [List.length_append, List.length_cons, List.length_nil]
  omega

lemma reduces_close (h : Spells [[b.closing]] s r) :
    Reduces (false, b :: opened) s (false, opened) r := by
  have hlt := h.length_lt
  obtain ⟨blanks, hb, rfl⟩ := spells_singleton.1 h
  exact reduces_of_step (takes_skipStep_close hb) hlt

/-! ### Whole values -/

/-- No numeral goes on with a blank or with a comma or a bracket. -/
lemma endsNumeral_of_spells {ts : List (List Char)} (hc : c ∈ [',', ']', '\x7d'])
    (h : Spells ([c] :: ts) s r) : EndsNumeral s := by
  obtain ⟨blanks, q, hb, rfl, -⟩ := h
  have hall : ∀ d ∈ [',', ']', '\x7d', ' ', '\n', '\t', '\r'],
      d.isDigit = false ∧ d ≠ '.' ∧ d ≠ 'e' ∧ d ≠ 'E' := by simp
  cases blanks with
  | nil =>
    rintro d ⟨⟩
    exact hall _ (List.mem_append_left [' ', '\n', '\t', '\r'] hc)
  | cons e blanks =>
    rintro d ⟨⟩
    exact hall _ (List.mem_append_right [',', ']', '\x7d'] (hb e List.mem_cons_self))

lemma endsNumeral_moreItems {vs : List Source} (h : Spells (moreItemTokens vs) s r) :
    EndsNumeral s := by
  cases vs <;> exact endsNumeral_of_spells (by decide) h

lemma endsNumeral_moreMembers {ms : List (List Letter × Source)}
    (h : Spells (moreMemberTokens ms) s r) : EndsNumeral s := by
  cases ms <;> exact endsNumeral_of_spells (by decide) h

lemma takes_skipAtom_numeral (h : IsNumeral t) (hends : EndsNumeral r) :
    ∃ c u, t = c :: u ∧ isBlank c = false ∧ bracket? c = none ∧
      (skipAtom c).Takes (t ++ r) () r := by
  obtain ⟨n, hn⟩ := takes_readNumeral h hends .malformed
  obtain ⟨c, u, rfl, hc⟩ := h.exists_opening
  have hskip : skipAtom c = (do
      let _ ← readNumeral .malformed
      return ()) := by
    have hnumeral : c = '-' ∨ c.isDigit = true := hc
    unfold skipAtom
    rw [if_neg (hc.ne (by decide) (by decide)), if_neg (hc.ne (by decide) (by decide)),
      if_neg (hc.ne (by decide) (by decide)), if_neg (hc.ne (by decide) (by decide)),
      if_pos hnumeral]
  refine ⟨c, u, rfl, hc.isBlank, ?_, ?_⟩
  · unfold bracket?
    rw [if_neg (hc.ne (by decide) (by decide)), if_neg (hc.ne (by decide) (by decide))]
  · rw [hskip]
    exact hn.bind (takes_pure () r)

mutual

/-- **The way over a value**, with whatever is open around it. -/
theorem reduces_value (v : Source) (opened : List Bracket) {s r : List Char}
    (h : Spells v.tokens s r) (hends : EndsNumeral r) :
    Reduces (true, opened) s (false, opened) r :=
  match v, h with
  | .null, h => reduces_atom (c := 'n') (by decide) (by decide)
      (takes_literal ['n', 'u', 'l', 'l'] r) h
  | .bool true, h => reduces_atom (c := 't') (by decide) (by decide)
      (takes_literal ['t', 'r', 'u', 'e'] r) h
  | .bool false, h => reduces_atom (c := 'f') (by decide) (by decide)
      (takes_literal ['f', 'a', 'l', 's', 'e'] r) h
  | .numeral ⟨t, ht⟩, h => by
    obtain ⟨c, u, rfl, hc, hno, hskip⟩ := takes_skipAtom_numeral ht hends
    exact reduces_atom hc hno hskip h
  | .string ls, h => reduces_atom (by decide) (by decide)
      ((takes_drop _ _).bind (takes_skipStringBody ls r)) h
  | .array [], h => reduces_empty (b := .array) rfl h
  | .array (v :: vs), h => by
    obtain ⟨q, hopen, h⟩ := reduces_open .array [] rfl h
    obtain ⟨p, hv, hvs⟩ := spells_append.1 h
    exact hopen.trans ((reduces_value v _ hv (endsNumeral_moreItems hvs)).trans
      (reduces_moreItems vs opened hvs))
  | .object [], h => reduces_empty (b := .object) rfl h
  | .object ((name, v) :: ms), h => by
    obtain ⟨q, hopen, h⟩ := reduces_open .object name rfl h
    obtain ⟨p, hv, hms⟩ := spells_append.1 h
    exact hopen.trans ((reduces_value v _ hv (endsNumeral_moreMembers hms)).trans
      (reduces_moreMembers ms opened hms))

theorem reduces_moreItems (vs : List Source) (opened : List Bracket) {s r : List Char}
    (h : Spells (moreItemTokens vs) s r) : Reduces (false, .array :: opened) s (false, opened) r :=
  match vs, h with
  | [], h => reduces_close (b := .array) h
  | v :: vs, h => by
    obtain ⟨q, hcomma, h⟩ := reduces_comma .array [] h
    obtain ⟨p, hv, hvs⟩ := spells_append.1 h
    exact hcomma.trans ((reduces_value v _ hv (endsNumeral_moreItems hvs)).trans
      (reduces_moreItems vs opened hvs))

theorem reduces_moreMembers (ms : List (List Letter × Source)) (opened : List Bracket)
    {s r : List Char} (h : Spells (moreMemberTokens ms) s r) :
    Reduces (false, .object :: opened) s (false, opened) r :=
  match ms, h with
  | [], h => reduces_close (b := .object) h
  | (name, v) :: ms, h => by
    obtain ⟨q, hcomma, h⟩ := reduces_comma .object name h
    obtain ⟨p, hv, hms⟩ := spells_append.1 h
    exact hcomma.trans ((reduces_value v _ hv (endsNumeral_moreMembers hms)).trans
      (reduces_moreMembers ms opened hms))

end

/-- **Reading over a value takes all of it and nothing else.** -/
theorem takes_skipValue {v : Source} (h : Spells v.tokens s r) (hends : EndsNumeral r) :
    skipValue.Takes s () r := by
  have hstop : Takes (iterate skipStep (false, [])) r (false, []) r := Takes.stop (takes_pure _ r)
  exact (reduces_value v [] h hends r hstop).bind (takes_pure () r)

end Json

end SavedState
