import SavedState.Proofs.SkippedValues
import SavedState.Proofs.WrittenValues

/-!
Strings, words and records in any JSON text.

However a value is written, it is known from its tree whether a reader gives something for it, and
what. An object is read as its members say one after another, and whatever is wrong with one of
them leaves no result of the whole.
-/

namespace SavedState

/-! ### What readers give -/

namespace Text.Reader

variable {ε α β : Type} {x : Reader ε α} {f : α → Reader ε β} {s r q : List Char} {a : α} {e : ε}
  {y : Option α} {z : α → Option β}

/-- A reader gives a value and leaves `r` of the text, or it fails, whatever the reason. -/
def Gives (x : Reader ε α) (s : List Char) (y : Option α) (r : List Char) : Prop :=
  ∃ w : Except ε α, w.toOption = y ∧ x.Runs s w r

lemma Takes.gives (h : x.Takes s a r) : x.Gives s (some a) r := ⟨.ok a, rfl, h⟩

lemma gives_none (h : x s = .error e) (r : List Char) : x.Gives s none r := ⟨.error e, rfl, h⟩

lemma Gives.takes (h : x.Gives s (some a) r) : x.Takes s a r := by
  obtain ⟨w | b, hw, h⟩ := h
  · cases hw
  · obtain rfl := Option.some.inj hw
    exact h

lemma Gives.fails (h : x.Gives s none r) : ∃ e, x s = .error e := by
  obtain ⟨e | b, hw, h⟩ := h
  · exact ⟨e, h⟩
  · cases hw

lemma Takes.bind_gives {y : Option β} (hx : x.Takes s a r) (hf : (f a).Gives r y q) :
    (x >>= f).Gives s y q := by
  obtain ⟨w, hw, hf⟩ := hf
  exact ⟨w, hw, hx.bind_runs hf⟩

lemma Gives.bind_none (hx : x.Gives s none r) (f : α → Reader ε β) (q : List Char) :
    (x >>= f).Gives s none q := by
  obtain ⟨e, he⟩ := hx.fails
  exact gives_none (bind_eq_error he) q

lemma Gives.bind (hx : x.Gives s y r) (hf : ∀ a, y = some a → (f a).Gives r (z a) q) :
    (x >>= f).Gives s (y.bind z) q := by
  cases y with
  | some a => exact hx.takes.bind_gives (hf a rfl)
  | none => exact hx.bind_none f q

/-- A reader that succeeds wherever the one before it does. -/
lemma Gives.bind_takes {g : α → β} (hx : x.Gives s y r) (hf : ∀ a, (f a).Takes r (g a) q) :
    (x >>= f).Gives s (y.map g) q := by
  cases y with
  | some a => exact (hx.takes.bind (hf a)).gives
  | none => exact hx.bind_none f q

lemma Gives.map (hx : x.Gives s y r) (g : α → β) : (g <$> x).Gives s (y.map g) r :=
  hx.bind_takes fun a => takes_pure (g a) r

/-- A reader behind which there is always a failure. -/
lemma gives_bind_fail (x : Reader ε α) (e : α → ε) (s r : List Char) :
    (x >>= fun a => (fail (e a) : Reader ε β)).Gives s none r := by
  cases h : x s with
  | error e => exact gives_none (bind_eq_error h) r
  | ok p =>
    obtain ⟨a, q, hq⟩ := p
    exact gives_none (Takes.bind_error ⟨hq, h⟩ rfl) r

lemma gives_ofExcept (w : Except ε α) (s : List Char) : (ofExcept w).Gives s w.toOption s :=
  ⟨w, rfl, runs_ofExcept w s⟩

variable {step : β → Reader ε (β × Bool)} {b : β} {y : Option β} {z : β → Option β}

/-- The last step of a repetition. -/
lemma Gives.stop (h : (step b).Gives s (y.map (·, false)) r) : Gives (iterate step b) s y r := by
  cases y with
  | some c => exact h.takes.stop.gives
  | none =>
    obtain ⟨e, he⟩ := h.fails
    exact ⟨.error e, rfl, Runs.stop (y := .error e) he⟩

/-- One step of a repetition that goes on. -/
lemma Gives.next (h : (step b).Gives s (y.map (·, true)) r) (hne : r ≠ s)
    (hrest : ∀ c, y = some c → Gives (iterate step c) r (z c) q) :
    Gives (iterate step b) s (y.bind z) q := by
  cases y with
  | none =>
    obtain ⟨e, he⟩ := h.fails
    exact ⟨.error e, rfl, Runs.stop (y := .error e) he⟩
  | some c =>
    obtain ⟨w, hw, hrest⟩ := hrest c rfl
    exact ⟨w, hw, Runs.next (y := .ok c) (z := fun _ => w) h.takes hne fun d hd => by
      cases hd
      exact hrest⟩

end Text.Reader

namespace Json

open Text.Reader

variable {α β : Type} {s t r q blanks : List Char} {c d : Char}

/-! ### Strings -/

/-- What the letters of a string come to, up to the closing quote. -/
def Decodes (s : List Char) (y : Option (List Char)) (r : List Char) : Prop :=
  ∃ w, w.toOption = y ∧ Collects (readChar readUnicode) s w r

lemma Decodes.gives {y : Option (List Char)} (h : Decodes s y r) :
    (readChars readUnicode).Gives s y r := by
  obtain ⟨w, hw, h⟩ := h
  exact ⟨w, hw, h.runs⟩

lemma decodes_none {e : ReadError} (h : readChar readUnicode s = .error e) (r : List Char) :
    Decodes s none r := ⟨.error e, rfl, Collects.stop (l := .error e) h⟩

lemma Decodes.cons {y : Option (List Char)}
    (hc : (readChar readUnicode).Takes (t ++ q) ([c], true) q) (ht : t ≠ [])
    (hrest : Decodes q y r) : Decodes (t ++ q) ((c :: ·) <$> y) r := by
  obtain ⟨w, rfl, hw⟩ := hrest
  refine ⟨_, ?_, Collects.next (l := .ok [c]) hc (fun heq => ht ?_) hw⟩
  · cases w <;> rfl
  · exact List.append_left_eq_self.1 heq.symm

lemma decodes_nil (r : List Char) : Decodes ('\x22' :: r) (some []) r :=
  ⟨.ok [], rfl, Collects.stop (l := .ok [])
    ((takes_head _).bind ((takes_drop '\x22' r).bind (takes_pure _ r)))⟩

/-! #### Code units -/

lemma isLowSurrogate_iff {n : Nat} : isLowSurrogate n = true ↔ IsSecondHalf n := by
  simp only [isLowSurrogate, Bool.and_eq_true, decide_eq_true_eq]
  omega

lemma isHighSurrogate_iff {n : Nat} : isHighSurrogate n = true ↔ IsFirstHalf n := by
  simp only [isHighSurrogate, Bool.and_eq_true, decide_eq_true_eq]
  omega

variable {high low : List HexDigit} {e : ReadError}

lemma readChar_unicode_fails (h : readUnicode s = .error e) :
    readChar readUnicode ('\\' :: 'u' :: s) = .error e := by
  have hescape : readEscape readUnicode ('u' :: s) = .error e :=
    (takes_head _).bind_error ((takes_drop 'u' s).bind_error h)
  exact (takes_head _).bind_error ((takes_drop '\\' _).bind_error (bind_eq_error hescape))

lemma readUnicode_second_fails (h : low.length = 4) (hsecond : IsSecondHalf (codeUnit low))
    (r : List Char) : readUnicode (digitText low ++ r) = .error .malformed := by
  refine (takes_readHex_digits h r).bind_error ?_
  rw [if_pos (isLowSurrogate_iff.2 hsecond)]
  rfl

/-- What must come behind the first half of a pair. -/
def secondHalf (high : Nat) : Reader Char := do
  literal ['\\', 'u']
  let low ← readHex
  if isLowSurrogate low then return paired high low else .fail .malformed

lemma runs_readUnicode_first {y : Except ReadError Char} (h : high.length = 4)
    (hsecond : ¬IsSecondHalf (codeUnit high)) (hfirst : IsFirstHalf (codeUnit high))
    (hrest : (secondHalf (codeUnit high)).Runs s y r) :
    readUnicode.Runs (digitText high ++ s) y r := by
  refine (takes_readHex_digits h s).bind_runs ?_
  rw [if_neg (isLowSurrogate_iff.not.2 hsecond), if_pos (isHighSurrogate_iff.2 hfirst)]
  exact hrest

lemma takes_secondHalf (h : low.length = 4) (hsecond : IsSecondHalf (codeUnit low)) (n : Nat)
    (r : List Char) : (secondHalf n).Takes ('\\' :: 'u' :: (digitText low ++ r))
      (paired n (codeUnit low)) r := by
  refine (takes_literal ['\\', 'u'] _).bind ((takes_readHex_digits h r).bind ?_)
  rw [if_pos (isLowSurrogate_iff.2 hsecond)]
  exact takes_pure _ r

lemma secondHalf_fails (h : low.length = 4) (hsecond : ¬IsSecondHalf (codeUnit low)) (n : Nat)
    (r : List Char) :
    secondHalf n ('\\' :: 'u' :: (digitText low ++ r)) = .error .malformed := by
  refine (takes_literal ['\\', 'u'] _).bind_error ((takes_readHex_digits h r).bind_error ?_)
  rw [if_neg (isLowSurrogate_iff.not.2 hsecond)]
  rfl

lemma literal_fails {cs : List Char} (h : ¬cs <+: s) : ∃ e, literal cs s = .error e := by
  induction cs generalizing s with
  | nil => exact absurd List.nil_prefix h
  | cons c cs ih =>
    by_cases hc : s.head? = some c
    · obtain ⟨s, rfl⟩ : ∃ t, s = c :: t := by
        cases s with
        | nil => cases hc
        | cons d s =>
          cases hc
          exact ⟨s, rfl⟩
      obtain ⟨e, he⟩ := ih fun hs => h (List.cons_prefix_cons.2 ⟨rfl, hs⟩)
      refine ⟨e, (takes_head _).bind_error ?_⟩
      rw [if_pos hc]
      exact (takes_drop c s).bind_error he
    · refine ⟨unexpected s.head?, (takes_head s).bind_error ?_⟩
      rw [if_neg hc]
      rfl

/-! #### Letters -/

lemma letterText_cons (l : Letter) (ls : List Letter) (r : List Char) :
    letterText (l :: ls) ++ r = l.text ++ (letterText ls ++ r) := by
  simp [letterText]

/-- A text that goes on with no code unit. -/
lemma not_prefix_letterText {ls : List Letter} (h : ∀ ds hds ls', ls = .code ds hds :: ls' → False)
    (r : List Char) : ¬['\\', 'u'] <+: letterText ls ++ r := by
  intro hprefix
  obtain ⟨q, hq⟩ := hprefix
  cases ls with
  | nil => cases hq
  | cons l ls =>
    rw [letterText_cons] at hq
    cases l with
    | plain c hc => exact hc.2.1 (List.cons.inj hq).1.symm
    | short c d hmem =>
      have hne : ∀ e ∈ shortEscapes, e.1 ≠ 'u' := by decide
      exact hne _ hmem (List.cons.inj (List.cons.inj hq).2).1.symm
    | code ds hds => exact h ds hds ls rfl

/-- **A string is read as its letters say**, and not at all if half a pair is among them. -/
theorem decodes_letters (ls : List Letter) (r : List Char) :
    Decodes (letterText ls ++ r) (decode ls) r := by
  fun_induction decode ls with
  | case1 => exact decodes_nil r
  | case2 c hc ls ih =>
    rw [letterText_cons]
    exact .cons (takes_readChar _ hc.1 hc.2.1 hc.2.2 _) (List.cons_ne_nil _ _) ih
  | case3 c d hmem ls ih =>
    rw [letterText_cons]
    exact .cons (takes_readChar_backslash (takes_readEscape_of_mem hmem _ _))
      (List.cons_ne_nil _ _) ih
  | case4 low h ls hsecond =>
    rw [letterText_cons]
    exact decodes_none (readChar_unicode_fails (readUnicode_second_fails h hsecond _)) r
  | case5 high h hnot hfirst low h' ls hsecond ih =>
    have hpair : readUnicode.Takes (digitText high ++ ((Letter.code low h').text ++
        (letterText ls ++ r)))
        (paired (codeUnit high) (codeUnit low)) (letterText ls ++ r) :=
      runs_readUnicode_first (y := .ok _) h hnot hfirst (takes_secondHalf h' hsecond _ _)
    rw [← List.append_assoc] at hpair
    rw [letterText_cons, letterText_cons, ← List.append_assoc]
    exact .cons (takes_readChar_backslash (takes_readEscape_unicode hpair))
      (List.cons_ne_nil _ _) ih
  | case6 high h hnot hfirst low h' ls hsecond =>
    rw [letterText_cons, letterText_cons]
    exact decodes_none (readChar_unicode_fails (runs_readUnicode_first (y := .error _) (r := r)
      h hnot hfirst (secondHalf_fails h' hsecond _ _))) r
  | case7 high h ls hnot hfirst hno =>
    obtain ⟨e, he⟩ := literal_fails (not_prefix_letterText hno r)
    rw [letterText_cons]
    exact decodes_none (readChar_unicode_fails (runs_readUnicode_first (y := .error _) (r := r)
      h hnot hfirst (bind_eq_error he))) r
  | case8 ds h ls hsecond hfirst ih =>
    have hread : readUnicode.Takes (digitText ds ++ (letterText ls ++ r)) (Char.ofNat (codeUnit ds))
        (letterText ls ++ r) :=
      takes_readUnicode_scalar ((List.length_map _).trans h) (ofHex?_digitText ds)
        (Bool.eq_false_iff.2 (isLowSurrogate_iff.not.2 hsecond))
        (Bool.eq_false_iff.2 (isHighSurrogate_iff.not.2 hfirst)) _
    rw [letterText_cons]
    exact .cons (takes_readChar_backslash (takes_readEscape_unicode hread))
      (List.cons_ne_nil _ _) ih

lemma gives_stringBody (ls : List Letter) (r : List Char) :
    stringBody.Gives (letterText ls ++ r) (decodeString ls) r :=
  (decodes_letters ls r).gives.map String.ofList

/-! ### Values of a wanted kind -/

namespace Source

/-- The string that a value is. -/
def text? : Source → Option String
  | string ls => decodeString ls
  | _ => none

/-- The word that a value is: a string, or the only name in an object, with null under it. -/
def word? : Source → Option String
  | string ls => decodeString ls
  | object [(ls, null)] => decodeString ls
  | _ => none

def isNull : Source → Bool
  | null => true
  | _ => false

end Source

variable {v : Source}

lemma gives_expect_of_ne (hb : IsSpacing blanks) (hd : isBlank d = false) (hne : d ≠ c)
    (s r : List Char) : (expect c).Gives (blanks ++ d :: s) none r := by
  refine (takes_peek_behind hb hd s).bind_gives ?_
  rw [if_neg fun h => hne (Option.some.inj h)]
  exact gives_none rfl r

/-- A value is looked at behind any blanks. -/
lemma takes_peek_source (h : Spells v.tokens s r) : ∃ q, peek.Takes s (some v.opening) q := by
  rw [← List.append_nil v.tokens] at h
  obtain ⟨blanks, q, hb, rfl, -⟩ := Source.exists_blanks h
  exact ⟨v.opening :: q, takes_peek_behind hb v.isBlank_opening q⟩

/-- **A string is read of a value that is one**, and nothing of any other. -/
lemma gives_readString (h : Spells v.tokens s r) : readString.Gives s v.text? r := by
  by_cases hquote : v.opening = '\x22'
  · obtain ⟨ls, rfl⟩ := Source.eq_string_of_opening hquote
    obtain ⟨blanks, hb, rfl⟩ := spells_singleton.1 h
    refine (takes_peek_behind hb (by decide) _).bind_gives ?_
    rw [if_pos rfl]
    exact (takes_drop _ _).bind_gives (gives_stringBody ls r)
  · have hnone : v.text? = none := by
      cases v with
      | string ls => exact absurd rfl hquote
      | _ => rfl
    obtain ⟨q, hpeek⟩ := takes_peek_source h
    refine hpeek.bind_gives ?_
    rw [if_neg fun h => hquote (Option.some.inj h), hnone]
    exact gives_bind_fail _ _ _ _

lemma gives_readUnit (h : Spells v.tokens s r) :
    readUnit.Gives s (if v.isNull then some () else none) r := by
  by_cases hn : v.opening = 'n'
  · obtain rfl := Source.eq_null_of_opening hn
    obtain ⟨blanks, hb, rfl⟩ := spells_singleton.1 h
    refine (takes_peek_behind hb (by decide) _).bind_gives ?_
    rw [if_pos rfl]
    exact (takes_literal ['n', 'u', 'l', 'l'] r).gives
  · have hnull : v.isNull = false := by
      cases v with
      | null => exact absurd rfl hn
      | _ => rfl
    obtain ⟨q, hpeek⟩ := takes_peek_source h
    refine hpeek.bind_gives ?_
    rw [if_neg fun h => hn (Option.some.inj h), hnull]
    exact gives_bind_fail _ _ _ _

lemma gives_afterColon {x : Reader α} {y : Option α} (h : Spells ([':'] :: v.tokens) s r)
    (hx : ∀ q, Spells v.tokens q r → x.Gives q y r) : (afterColon x).Gives s y r := by
  obtain ⟨blanks, q, hb, rfl, h⟩ := h
  exact (takes_expect_behind hb (by decide) q).bind_gives (hx q h)

lemma gives_ofWord (entries : List (String × α)) (word : String) (s : List Char) :
    (ofExcept (ofWord entries word)).Gives s (entries.lookup word) s := by
  have hlookup : (ofWord entries word).toOption = entries.lookup word := by
    unfold ofWord
    cases entries.lookup word <;> rfl
  rw [← hlookup]
  exact gives_ofExcept _ s

/-- The bracket that closes an object, where nothing follows the first member. -/
lemma gives_expect_close {ms : List (List Letter × Source)} (h : Spells (moreMemberTokens ms) s r) :
    (expect '\x7d').Gives s (if ms.isEmpty then some () else none) r := by
  cases ms with
  | nil =>
    obtain ⟨blanks, hb, rfl⟩ := spells_singleton.1 h
    exact (takes_expect_behind hb (by decide) r).gives
  | cons m ms =>
    obtain ⟨blanks, q, hb, rfl, -⟩ := h
    exact gives_expect_of_ne hb (by decide) (by decide) _ r

/-- A word that is the only name in an object, whose opening bracket has been taken. -/
def wordInObject (entries : List (String × α)) : Reader α := do
  expect '\x22'
  let a ← .ofExcept (ofWord entries (← stringBody))
  afterColon readUnit
  expect '\x7d'
  return a

lemma word?_object (ls : List Letter) (v : Source) (ms : List (List Letter × Source)) :
    (Source.object ((ls, v) :: ms)).word? =
      if v.isNull ∧ ms.isEmpty then decodeString ls else none := by
  cases ms with
  | nil => cases v <;> rfl
  | cons m ms => simp [Source.word?]

lemma gives_wordInObject (entries : List (String × α)) {ms : List (List Letter × Source)}
    (h : Spells (memberTokens ms) s r) : (wordInObject entries).Gives s
      ((Source.object ms).word?.bind fun word => entries.lookup word) r := by
  obtain _ | ⟨⟨ls, v⟩, ms⟩ := ms
  · obtain ⟨blanks, hb, rfl⟩ := spells_singleton.1 h
    exact (gives_expect_of_ne hb (by decide) (by decide) r r).bind_none _ r
  obtain ⟨p, ⟨blanks, q, hb, rfl, hvalue⟩, hms⟩ := spells_member.1 h
  have hall : (wordInObject entries).Gives (blanks ++ (stringToken ls ++ q))
      ((decodeString ls).bind fun word => (entries.lookup word).bind fun a =>
        (if v.isNull then some () else none).bind fun _ =>
          (if ms.isEmpty then some () else none).bind fun _ => some a) r := by
    refine (takes_expect_behind hb (by decide) _).bind_gives ?_
    refine (gives_stringBody ls q).bind fun word _ => ?_
    refine (gives_ofWord entries word q).bind fun a _ => ?_
    refine (gives_afterColon hvalue fun _ => gives_readUnit).bind fun _ _ => ?_
    exact (gives_expect_close hms).bind fun _ _ => (takes_pure a r).gives
  have heq : ((Source.object ((ls, v) :: ms)).word?.bind fun word => entries.lookup word) =
      (decodeString ls).bind fun word => (entries.lookup word).bind fun a =>
        (if v.isNull then some () else none).bind fun _ =>
          (if ms.isEmpty then some () else none).bind fun _ => some a := by
    rw [word?_object]
    by_cases hnull : v.isNull = true <;> by_cases hms : ms.isEmpty = true <;> simp [hnull, hms]
  rw [heq]
  exact hall

/-- **A word of a vocabulary is read of a value that is one**, and nothing of any other. -/
lemma gives_readWord (entries : List (String × α)) (h : Spells v.tokens s r) :
    (readWord entries).Gives s (v.word?.bind fun word => entries.lookup word) r := by
  by_cases hquote : v.opening = '\x22'
  · -- a string
    obtain ⟨ls, rfl⟩ := Source.eq_string_of_opening hquote
    obtain ⟨blanks, hb, rfl⟩ := spells_singleton.1 h
    refine (takes_peek_behind hb (by decide) _).bind_gives ?_
    rw [if_pos rfl]
    refine (takes_drop _ _).bind_gives ?_
    exact (gives_stringBody ls r).bind fun word _ => gives_ofWord entries word r
  by_cases hopen : v.opening = '\x7b'
  · -- an object, perhaps with the word as its only name
    obtain ⟨ms, rfl⟩ := Source.eq_object_of_opening hopen
    obtain ⟨blanks, q, hb, rfl, h⟩ := h
    refine (takes_peek_behind hb (by decide) _).bind_gives ?_
    rw [if_neg (by decide), if_pos rfl]
    exact (takes_drop _ _).bind_gives (gives_wordInObject entries h)
  · have hnone : v.word? = none := by
      cases v with
      | string ls => exact absurd rfl hquote
      | object ms => exact absurd rfl hopen
      | _ => rfl
    obtain ⟨q, hpeek⟩ := takes_peek_source h
    refine hpeek.bind_gives ?_
    rw [if_neg fun h => hquote (Option.some.inj h), if_neg fun h => hopen (Option.some.inj h),
      hnone]
    exact gives_none rfl r

/-! ### Records -/

/-- What a member comes to, where `put` says what comes of a name and a value. -/
def enter (put : β → String → Source → Option β) (b : β) (m : List Letter × Source) : Option β :=
  (decodeString m.1).bind fun name => put b name m.2

section

variable {member : β → String → Reader β} {put : β → String → Source → Option β}

/-- A member is read behind its name as `put` says, whatever the name and the value are. -/
def Enters (member : β → String → Reader β) (put : β → String → Source → Option β) : Prop :=
  ∀ b name v s r, Spells ([':'] :: v.tokens) s r → EndsNumeral r →
    (member b name).Gives s (put b name v) r

lemma gives_memberStep (hmember : Enters member put) {ls : List Letter} {goesOn : Bool}
    (h : Spells (stringToken ls :: [':'] :: v.tokens) s q) (hends : EndsNumeral q)
    (hend : ∀ b : β, (separator '\x7d' b).Takes q (b, goesOn) r) (b : β) :
    (memberStep member b).Gives s ((enter put b (ls, v)).map (·, goesOn)) r := by
  obtain ⟨blanks, p, hb, rfl, h⟩ := h
  rw [enter, Option.map_bind]
  refine (takes_expect_behind hb (by decide) _).bind_gives ?_
  exact (gives_stringBody ls p).bind fun name _ => (hmember b name v p q h hends).bind_takes hend

lemma gives_moreMembers (hmember : Enters member put) {ls : List Letter} {v : Source}
    {ms : List (List Letter × Source)}
    (h : Spells (stringToken ls :: [':'] :: (v.tokens ++ moreMemberTokens ms)) s r) (b : β) :
    (moreMembers member b).Gives s (((ls, v) :: ms).foldlM (enter put) b) r := by
  induction ms generalizing ls v s b with
  | nil =>
    obtain ⟨q, hm, hclose⟩ := spells_member.1 h
    have hends := endsNumeral_moreMembers hclose
    obtain ⟨blanks, hb, rfl⟩ := spells_singleton.1 hclose
    have hstep := gives_memberStep hmember hm hends
      (fun b => takes_separator_close hb (by decide) b r) b
    have hfold : [(ls, v)].foldlM (enter put) b = enter put b (ls, v) := by
      simp
    rw [hfold]
    exact Gives.stop hstep
  | cons m ms ih =>
    obtain ⟨ls', v'⟩ := m
    obtain ⟨q, hm, hmore⟩ := spells_member.1 h
    have hends := endsNumeral_moreMembers hmore
    have hlt : q.length < s.length := hm.length_lt
    obtain ⟨blanks, p, hb, rfl, hmore⟩ := hmore
    have hstep := gives_memberStep hmember hm hends
      (fun b => takes_separator_comma hb (by decide) b p) b
    refine Gives.next hstep ?_ fun b _ => ih hmore b
    rintro rfl
    simp only [List.length_append, List.length_cons] at hlt
    omega

/-- **The members of an object are read one after another.** -/
theorem gives_membersBody (hmember : Enters member put) {ms : List (List Letter × Source)}
    (h : Spells (memberTokens ms) s r) (b : β) :
    (membersBody member b).Gives s (ms.foldlM (enter put) b) r := by
  obtain _ | ⟨⟨ls, v⟩, ms⟩ := ms
  · obtain ⟨blanks, hb, rfl⟩ := spells_singleton.1 h
    refine (takes_peek_behind hb (by decide) r).bind_gives ?_
    rw [if_pos rfl]
    exact ((takes_drop _ r).bind (takes_pure b r)).gives
  · obtain ⟨blanks, q, hb, rfl, hfirst⟩ := Spells.exists_blanks h
    refine (takes_peek_behind hb (by decide) q).bind_gives ?_
    rw [if_neg (by decide)]
    exact gives_moreMembers hmember hfirst b

end

namespace Format

variable {f : Format α β} {field : Field β} {b : β} {y : Option β}

/-- The member of a field, which must not have been read before. -/
lemma gives_member (name : String) (hfield : f.fields.find? (fun x => x.name == name) = some field)
    (h : Spells ([':'] :: v.tokens) s r)
    (hread : ∀ q, Spells v.tokens q r → (field.read b).Gives q y r) :
    (f.member b name).Gives s (if field.isRead b then none else y) r := by
  unfold member
  rw [hfield]
  dsimp only
  split
  · exact gives_none rfl r
  · exact gives_afterColon h hread

/-- The member of no field, which is read over. -/
lemma gives_member_other {name : String} (hnone : f.fields.find? (fun x => x.name == name) = none)
    (hignores : f.ignoresOthers = true) (h : Spells ([':'] :: v.tokens) s r)
    (hends : EndsNumeral r) : (f.member b name).Gives s (some b) r := by
  have hskip : (afterColon skipValue).Gives s (some ()) r :=
    gives_afterColon h fun q hq => (takes_skipValue hq hends).gives
  unfold member
  rw [hnone]
  dsimp only
  rw [if_pos hignores]
  exact (hskip.takes.bind (takes_pure b r)).gives

/-- **A record is read of an object member by member**, if nothing is wrong with any of them. -/
theorem gives_read {put : β → String → Source → Option β}
    (hmember : Enters f.member put) {ms : List (List Letter × Source)}
    (h : Spells (Source.object ms).tokens s r) : f.read.Gives s
      ((ms.foldlM (enter put) f.empty).bind fun b => (f.complete b).toOption) r := by
  obtain ⟨blanks, q, hb, rfl, h⟩ := h
  refine (takes_peek_behind hb (by decide) _).bind_gives ?_
  rw [if_pos rfl]
  refine (takes_drop _ _).bind_gives ((gives_membersBody hmember h _).bind fun b _ => ?_)
  have hcomplete : (f.complete b).toOption =
      ((f.complete b).mapError ReadError.missingField).toOption := by
    cases f.complete b <;> rfl
  rw [hcomplete]
  exact gives_ofExcept _ r

end Format

/-- A text that is a value, read by a reader of such values. -/
lemma readText_of_gives {x : Reader α} {text : String} {y : Option α} (h : v.IsText text)
    (hx : ∀ {r}, Spells v.tokens text.toList r → x.Gives text.toList y r) :
    (readText x text).toOption = y := by
  obtain ⟨blanks, hb, h⟩ := h
  cases y with
  | some a =>
    rw [readText_eq_ok_behind hb (hx h).takes]
    rfl
  | none =>
    obtain ⟨e, he⟩ := (hx h).fails
    unfold readText
    rw [he]
    rfl

end Json

end SavedState
