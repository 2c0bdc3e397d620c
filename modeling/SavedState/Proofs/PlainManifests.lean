import SavedState.Proofs.HelperPath
import SavedState.Proofs.Reading

/-!
Manifests that are written plainly.

Where nothing in a text has to be escaped, a string is read as it stands between its quotes, and a
manifest with one field, written as arrays, gives just that field.
-/

namespace SavedState

/-! ### What readers take -/

namespace Text.Reader

variable {ε α β : Type} {x : Reader ε α} {f : α → Reader ε β} {s r q : List Char} {a : α} {b : β}

/-- A reader takes a value off the front of a text. -/
def Takes (x : Reader ε α) (s : List Char) (a : α) (r : List Char) : Prop :=
  ∃ h, x s = .ok (a, ⟨r, h⟩)

lemma takes_pure (a : α) (s : List Char) : (pure a : Reader ε α).Takes s a s := ⟨_, rfl⟩

lemma Takes.bind (hx : x.Takes s a r) (hf : (f a).Takes r b q) : (x >>= f).Takes s b q := by
  obtain ⟨hr, hx⟩ := hx
  obtain ⟨hq, hf⟩ := hf
  refine ⟨hq.trans hr, ?_⟩
  change Reader.bind x f s = _
  unfold Reader.bind
  rw [hx]
  dsimp only
  rw [hf]

lemma Takes.map (hx : x.Takes s a r) (g : α → β) : (g <$> x).Takes s (g a) r :=
  hx.bind (takes_pure (g a) r)

lemma takes_head (s : List Char) : (head : Reader ε (Option Char)).Takes s s.head? s := ⟨_, rfl⟩

lemma takes_drop (c : Char) (s : List Char) : (drop : Reader ε Unit).Takes (c :: s) () s :=
  ⟨_, rfl⟩

lemma takes_ofExcept {y : Except ε α} (h : y = .ok a) (s : List Char) :
    (ofExcept y).Takes s a s := by
  rw [h]
  exact ⟨_, rfl⟩

/-- The last step of a repetition. -/
lemma Takes.stop {step : β → Reader ε (β × Bool)} {b c : β}
    (h : (step b).Takes s (c, false) r) : Takes (iterate step b) s c r := by
  obtain ⟨hr, h⟩ := h
  refine ⟨hr, ?_⟩
  unfold iterate
  rw [h]
  rfl

/-- One step of a repetition that goes on. -/
lemma Takes.next {step : β → Reader ε (β × Bool)} {b c d : β} (h : (step b).Takes s (c, true) r)
    (hne : r ≠ s) (hrest : Takes (iterate step c) r d q) : Takes (iterate step b) s d q := by
  obtain ⟨hr, h⟩ := h
  obtain ⟨hq, hrest⟩ := hrest
  refine ⟨hq.trans hr, ?_⟩
  have hgoes : (true && r != s) = true := by simpa using hne
  unfold iterate
  rw [h]
  dsimp only
  rw [dif_pos hgoes, hrest]

end Text.Reader

/-! ### Strings -/

namespace Json

open Text.Reader

variable {α β γ : Type} {s r : List Char} {c : Char}

def IsSpacing (s : List Char) : Prop := ∀ c ∈ s, c ∈ [' ', '\n', '\t', '\r']

instance : DecidablePred IsSpacing := fun s => List.decidableBAll (· ∈ [' ', '\n', '\t', '\r']) s

lemma isSpacing_nil : IsSpacing [] := List.forall_mem_nil _

lemma skipBlanks_of_isSpacing {blanks : List Char} (hb : IsSpacing blanks) (s : List Char) :
    skipBlanks (blanks ++ s) = skipBlanks s :=
  List.dropWhile_append_of_pos fun c hc => by simpa [isBlank, or_assoc] using hb c hc

/-- Blanks in front of a character are passed over. -/
lemma takes_peek_behind {blanks : List Char} (hb : IsSpacing blanks) (hc : isBlank c = false)
    (s : List Char) : peek.Takes (blanks ++ c :: s) (some c) (c :: s) := by
  have hskip : skipBlanks (blanks ++ c :: s) = c :: s := by
    rw [skipBlanks_of_isSpacing hb]
    exact List.dropWhile_cons_of_neg (by simp [hc])
  refine ⟨List.suffix_append _ _, ?_⟩
  unfold peek
  simp only [hskip, List.head?_cons]

lemma takes_peek (hc : isBlank c = false) (s : List Char) :
    peek.Takes (c :: s) (some c) (c :: s) := takes_peek_behind isSpacing_nil hc s

lemma takes_expect_behind {blanks : List Char} (hb : IsSpacing blanks) (hc : isBlank c = false)
    (s : List Char) : (expect c).Takes (blanks ++ c :: s) () s := by
  refine (takes_peek_behind hb hc s).bind ?_
  rw [if_pos rfl]
  exact takes_drop c s

lemma takes_expect (hc : isBlank c = false) (s : List Char) : (expect c).Takes (c :: s) () s :=
  takes_expect_behind isSpacing_nil hc s

/-- Characters that stand for themselves in a string. -/
def IsUnescaped (cs : List Char) : Prop := ∀ c ∈ cs, c ≠ '\x22' ∧ c ≠ '\\' ∧ 32 ≤ c.toNat

instance : DecidablePred IsUnescaped := fun cs =>
  List.decidableBAll (fun c => c ≠ '\x22' ∧ c ≠ '\\' ∧ 32 ≤ c.toNat) cs

lemma plain_of_isIdentifierPart (h : isIdentifierPart c = true) :
    c ≠ '\x22' ∧ c ≠ '\\' ∧ 32 ≤ c.toNat := by
  have hcontrol : ∀ n < 32, isIdentifierPart (Char.ofNat n) = false := by decide
  refine ⟨?_, ?_, ?_⟩
  · rintro rfl
    exact absurd h (by decide)
  · rintro rfl
    exact absurd h (by decide)
  · by_contra hlt
    have := hcontrol c.toNat (Nat.not_le.1 hlt)
    rw [Char.ofNat_toNat, h] at this
    cases this

lemma isUnescaped_of_isName {name : String} (h : IsName name) : IsUnescaped name.toList :=
  fun c hc => plain_of_isIdentifierPart (List.all_eq_true.1 (all_part_of_isIdentifier h) c hc)

/-- The names of a type stand for themselves. -/
lemma isUnescaped_dotted {names : List String} (h : ∀ s ∈ names, IsName s) :
    IsUnescaped (Text.dotted names).toList := by
  intro c hc
  by_cases hdot : c = '.'
  · rw [hdot]
    decide
  · refine plain_of_isIdentifierPart ?_
    by_contra hpart
    rw [Bool.not_eq_true] at hpart
    exact Text.not_mem_intercalate (by simpa using hdot) (fun s hs => (h s hs).not_mem hpart) hc

/-- A string is read up to its closing quote, where the text of each part of it is read as one
character. -/
lemma takes_readChars {unicode : Reader Char} {parts : List γ} {written : γ → List Char}
    {value : γ → Char} (h : ∀ p ∈ parts, written p ≠ [] ∧
      ∀ r, (readChar unicode).Takes (written p ++ r) ([value p], true) r) (r : List Char) :
    (readChars unicode).Takes (parts.flatMap written ++ '\x22' :: r) (parts.map value) r := by
  let step : List Char → Reader (List Char × Bool) := fun collected => do
    let (found, goesOn) ← readChar unicode
    return (found.reverse ++ collected, goesOn)
  have hstep : ∀ collected, Takes (iterate step collected) (parts.flatMap written ++ '\x22' :: r)
      ((parts.map value).reverse ++ collected) r := by
    induction parts with
    | nil =>
      intro collected
      refine Takes.stop (Takes.bind (a := ([], false)) ?_ (takes_pure _ r))
      refine (takes_head _).bind ?_
      exact (takes_drop '\x22' r).bind (takes_pure _ r)
    | cons p parts ih =>
      intro collected
      rw [List.forall_mem_cons] at h
      obtain ⟨⟨hne, hp⟩, hparts⟩ := h
      have hrest := ih hparts (value p :: collected)
      rw [List.map_cons, List.reverse_cons, List.append_assoc, List.singleton_append,
        List.flatMap_cons, List.append_assoc]
      refine Takes.next (r := parts.flatMap written ++ '\x22' :: r) ?_ (by simpa using hne) hrest
      exact (hp _).bind (takes_pure _ _)
  have hall := (hstep []).bind (f := fun collected => (pure collected.reverse : Reader (List Char)))
    (takes_pure _ r)
  rw [List.append_nil, List.reverse_reverse] at hall
  exact hall

/-- A plain character stands for itself. -/
lemma takes_readChar (unicode : Reader Char) (hquote : c ≠ '\x22') (hback : c ≠ '\\')
    (hcontrol : 32 ≤ c.toNat) (r : List Char) :
    (readChar unicode).Takes (c :: r) ([c], true) r := by
  refine (takes_head _).bind ((takes_drop c r).bind ?_)
  rw [if_neg hquote, if_neg hback, if_neg (Nat.not_lt.2 hcontrol)]
  exact takes_pure _ _

lemma takes_readChars_plain (unicode : Reader Char) {cs : List Char} (h : IsUnescaped cs)
    (r : List Char) : (readChars unicode).Takes (cs ++ '\x22' :: r) cs r := by
  have hall : (readChars unicode).Takes (cs.flatMap (fun c => [c]) ++ '\x22' :: r) (cs.map id)
      r := by
    refine takes_readChars (fun c hc => ?_) r
    obtain ⟨hquote, hback, hcontrol⟩ := h c hc
    exact ⟨List.cons_ne_nil c [], takes_readChar unicode hquote hback hcontrol⟩
  rw [List.flatMap_singleton', List.map_id] at hall
  exact hall

lemma takes_stringBody {text : String} (h : IsUnescaped text.toList) (r : List Char) :
    stringBody.Takes (text.toList ++ '\x22' :: r) text r := by
  have hall := (takes_readChars_plain readUnicode h r).map String.ofList
  rw [String.ofList_toList] at hall
  exact hall

/-- A text between quotes. -/
def quoted (text : String) (r : List Char) : List Char := '\x22' :: (text.toList ++ '\x22' :: r)

lemma takes_readString {text : String} (h : IsUnescaped text.toList) (r : List Char) :
    readString.Takes (quoted text r) text r := by
  refine (takes_peek (by decide) _).bind ?_
  rw [if_pos rfl]
  exact (takes_drop _ _).bind (takes_stringBody h r)

/-- A text that is taken to its end, blanks apart. -/
lemma readText_eq_ok_behind {x : Reader α} {text : String} {a : α} {blanks : List Char}
    (hb : IsSpacing blanks) (h : x.Takes text.toList a blanks) : readText x text = .ok a := by
  have hskip : skipBlanks blanks = [] := by
    rw [← List.append_nil blanks, skipBlanks_of_isSpacing hb]
    rfl
  obtain ⟨hr, h⟩ := h
  unfold readText
  rw [h]
  dsimp only
  rw [hskip]
  rfl

lemma readText_eq_ok {x : Reader α} {text : String} {a : α} (h : x.Takes text.toList a []) :
    readText x text = .ok a := readText_eq_ok_behind isSpacing_nil h

/-! ### Records and lists -/

lemma takes_slots_first {field : Field β} {fields : List (Field β)} {b b' b'' : β}
    {r q : List Char} (hblank : isBlank c = false) (hc : c ≠ ']')
    (hfield : (field.read b).Takes (c :: s) b' r)
    (hrest : (Format.slots b' false fields).Takes r b'' q) :
    (Format.slots b true (field :: fields)).Takes (c :: s) b'' q := by
  refine (takes_peek hblank s).bind ?_
  rw [if_neg fun h => hc (Option.some.inj h)]
  exact hfield.bind hrest

lemma takes_slots_next {field : Field β} {fields : List (Field β)} {b b' b'' : β}
    {r q : List Char} (hfield : (field.read b).Takes s b' r)
    (hrest : (Format.slots b' false fields).Takes r b'' q) :
    (Format.slots b false (field :: fields)).Takes (',' :: s) b'' q := by
  refine (takes_peek (c := ',') (by decide) s).bind ?_
  rw [if_neg (by decide)]
  exact (takes_expect (c := ',') (by decide) s).bind (hfield.bind hrest)

lemma takes_slots_end (field : Field β) (fields : List (Field β)) (b : β) (isFirst : Bool)
    (s : List Char) : (Format.slots b isFirst (field :: fields)).Takes (']' :: s) b (']' :: s) := by
  refine (takes_peek (by decide) s).bind ?_
  rw [if_pos rfl]
  exact takes_pure b _

/-- A record that is written as an array. -/
lemma takes_read {f : Format α β} {b : β} {a : α}
    (hslots : (Format.slots f.empty true f.fields).Takes s b (']' :: r))
    (hcomplete : f.complete b = .ok a) : f.read.Takes ('[' :: s) a r := by
  refine (takes_peek (by decide) s).bind ?_
  rw [if_neg (by decide), if_pos rfl]
  refine (takes_drop _ s).bind (hslots.bind ?_)
  refine (takes_ofExcept (by rw [hcomplete]; rfl) _).bind ?_
  exact (takes_expect (by decide) r).bind (takes_pure a r)

/-- A list of one item. -/
lemma takes_readList {item : Reader α} {a : α} (hblank : isBlank c = false) (hc : c ≠ ']')
    (hitem : item.Takes (c :: s) a (']' :: r)) :
    (readList item).Takes ('[' :: c :: s) [a] r := by
  refine (takes_peek (by decide) _).bind ?_
  rw [if_pos rfl]
  refine (takes_drop _ _).bind ((takes_peek hblank s).bind ?_)
  rw [if_neg fun h => hc (Option.some.inj h)]
  refine Takes.bind (Takes.stop (c := [a]) ?_) (takes_pure _ r)
  refine Takes.bind (a := ([a], false)) ?_ (takes_pure _ r)
  refine hitem.bind ((takes_peek (by decide) r).bind ?_)
  rw [if_pos rfl]
  exact (takes_drop _ r).bind (takes_pure _ r)

/-- An object without members. -/
lemma takes_readMap (value : Reader α) (b : β) (put : β → String → α → β) (r : List Char) :
    (readMap value b put).Takes ('\x7b' :: '\x7d' :: r) b r := by
  refine (takes_peek (by decide) _).bind ?_
  rw [if_pos rfl]
  refine (takes_drop _ _).bind ((takes_peek (by decide) r).bind ?_)
  rw [if_pos rfl]
  exact (takes_drop _ r).bind (takes_pure b r)

end Json

/-! ### Manifests -/

namespace Manifest

open Json Text.Reader

/-- The text of a manifest with one field, which has no modifiers. -/
def plainText (enclosing name type : String) : String :=
  String.ofList (['[', '\x7b', '\x7d', ',', '[', '['] ++
    quoted enclosing (',' :: quoted name (',' :: quoted type [']', ']', ']'])))

variable {enclosing name type : String} {d : DeclaringType}

lemma takes_readDeclaring (hd : DeclaringType.read enclosing = .ok d)
    (h : IsUnescaped enclosing.toList) (r : List Char) :
    readDeclaring.Takes (quoted enclosing r) d r := by
  refine (takes_readString h r).bind ?_
  rw [hd]
  exact takes_pure d r

/-- **A manifest that is written plainly is read as it stands.** -/
theorem ofText_plainText (hd : DeclaringType.read enclosing = .ok d)
    (henclosing : IsUnescaped enclosing.toList) (hname : IsUnescaped name.toList)
    (htype : IsUnescaped type.toList) :
    ofText (plainText enclosing name type) = .ok ⟨.empty, [⟨d, name, type, .empty⟩]⟩ := by
  have hentry : readEntry.Takes ('[' :: quoted enclosing (',' :: quoted name (',' :: quoted type
      [']', ']', ']']))) ⟨d, name, type, .empty⟩ [']', ']'] := by
    refine takes_read (b := ⟨some d, some name, some type, none⟩) ?_ rfl
    refine takes_slots_first (c := '\x22') (by decide) (by decide)
      ((takes_readDeclaring hd henclosing _).map _) ?_
    refine takes_slots_next ((takes_readString hname _).map _) ?_
    refine takes_slots_next ((takes_readString htype _).map _) ?_
    exact takes_slots_end _ _ _ _ _
  have hmanifest : format.read.Takes (['[', '\x7b', '\x7d', ',', '[', '['] ++
      quoted enclosing (',' :: quoted name (',' :: quoted type [']', ']', ']'])))
      ⟨.empty, [⟨d, name, type, .empty⟩]⟩ [] := by
    refine takes_read (b := ⟨some .empty, some [⟨d, name, type, .empty⟩]⟩) ?_ rfl
    refine takes_slots_first (c := '\x7b') (by decide) (by decide)
      ((takes_readMap _ _ _ _).map _) ?_
    refine takes_slots_next ((takes_readList (c := '[') (by decide) (by decide) hentry).map _) ?_
    exact takes_pure _ _
  refine readText_eq_ok ?_
  unfold plainText
  rw [String.toList_ofList]
  exact hmanifest

end Manifest

end SavedState
