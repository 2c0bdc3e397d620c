import Mathlib.Data.List.DropRight
import Mathlib.Tactic.Common
import SavedState.Proofs.Reading
import SavedState.Proofs.TypeGrammar

/-!
What the reader of a field's type accepts, and what it gives.

It accepts what is written of some tree, and gives the erasure of that tree. Each step of the
reader takes one part of a tree off the text, whatever may follow.
-/

namespace SavedState.FieldType

/-! ### Tokens -/

section

variable {c : Char} {name : String} {text : List Char} {ts : List Token} {s : List Char}

lemma readName_of_spells (h : Spells (.name text :: ts) s) :
    ∃ r, readName s = .ok (String.ofList text, r) ∧ Trails ts r.1 := by
  obtain ⟨hn, rfl, hr⟩ := spells_name_iff.1 h
  exact ⟨_, dif_pos (isName_iff.2 hn), hr⟩

lemma spells_of_readName {r : Rest s} (h : readName s = .ok (name, r)) (hr : Trails ts r.1) :
    Spells (.name name.toList :: ts) s := by
  unfold readName at h
  split at h
  · rename_i hn
    cases h
    rw [String.toList_ofList]
    exact spells_name_iff.2 ⟨isName_iff.1 hn, rfl, hr⟩
  · cases h

lemma skipBlanks_of_eat? {r : Rest s} (h : eat? c s = some r) :
    Text.skipBlanks s = c :: r.1 := by
  unfold eat? at h
  split at h
  · cases h
  · rename_i d q hd
    split at h
    · rename_i hdc
      cases h
      exact hdc ▸ hd
    · cases h

lemma eat?_of_skipBlanks {r : List Char} (h : Text.skipBlanks s = c :: r) :
    ∃ hr, eat? c s = some ⟨r, hr⟩ := by
  have hlt : r.length < s.length := by
    have := Text.skipBlanks_length_le s
    rwa [h, List.length_cons, Nat.succ_le_iff] at this
  refine ⟨hlt, ?_⟩
  unfold eat?
  split
  · rename_i hnil
    cases hnil.symm.trans h
  · rename_i hd
    cases hd.symm.trans h
    exact if_pos rfl

lemma eat?_of_trails (h : Trails (.mark c :: ts) s) : ∃ r, eat? c s = some r ∧ Trails ts r.1 := by
  obtain ⟨-, r, hs, hr⟩ := spells_mark_iff.1 h
  obtain ⟨hlt, he⟩ := eat?_of_skipBlanks hs
  exact ⟨⟨r, hlt⟩, he, hr⟩

lemma trails_of_eat? {r : Rest s} (h : eat? c s = some r) (hc : c ∈ marks) (hr : Trails ts r.1) :
    Trails (.mark c :: ts) s :=
  spells_mark_iff.2 ⟨hc, r.1, skipBlanks_of_eat? h, hr⟩

lemma eat?_eq_none (h : Trails ts s) (hc : c ∈ marks) (hts : ts.head? ≠ some (.mark c)) :
    eat? c s = none := by
  cases he : eat? c s with
  | none => rfl
  | some r =>
    exfalso
    have hs : Spells ts (c :: r.1) := skipBlanks_of_eat? he ▸ h
    match ts with
    | [] => cases spells_nil_iff.1 hs
    | .name text :: ts => exact (endsName_mark hc r.1).not_spells_name hs rfl
    | .mark d :: ts =>
      obtain ⟨-, q, hq, -⟩ := spells_mark_iff.1 hs
      cases hq
      exact hts rfl

end

/-! ### What is written of a tree is read -/

lemma Closes.head?_ne {ts : List Token} (h : Closes ts) {t : Token} (hcomma : t ≠ .mark ',')
    (hangle : t ≠ .mark '>') : ts.head? ≠ some t :=
  fun ht => (h t ht).elim hcomma hangle

lemma readDimensions_of_trails {n : Nat} {ts : List Token} {s : List Char}
    (h : Trails (dimensionTokens n ++ ts) s) (hts : Closes ts) :
    ∃ r, readDimensions s = .ok (n, r) ∧ Spells ts r.1 := by
  induction n generalizing s with
  | zero =>
    have hnone := eat?_eq_none h (by decide : '[' ∈ marks)
      (hts.head?_ne (by decide) (by decide))
    rw [readDimensions, hnone]
    exact ⟨_, rfl, h⟩
  | succ n ih =>
    obtain ⟨⟨r, hr⟩, hopen, hrest⟩ := eat?_of_trails h
    obtain ⟨⟨q, hq⟩, hclose, hrest⟩ := eat?_of_trails hrest
    obtain ⟨⟨p, hp⟩, hdims, hrest⟩ := ih hrest
    rw [readDimensions, hopen]
    dsimp only
    rw [hclose]
    dsimp only
    rw [hdims]
    exact ⟨_, rfl, hrest⟩

lemma not_startsBound {ts : List Token} {s : List Char} (h : Spells ts s) (hts : Closes ts) :
    startsBound s = false := by
  cases h with
  | nil => rfl
  | name _ _ _ _ => exact (not_closes_name hts).elim
  | @mark c _ _ _ _ _ _ =>
    change Text.isAlphabetic c = false
    rcases hts _ rfl with h | h <;> cases h <;> decide

lemma startsBound_of_spells {c : Char} {text : List Char} {ts : List Token} {s : List Char}
    (h : Spells (.name (c :: text) :: ts) s) (hc : Text.isAlphabetic c = true) :
    startsBound s = true := by
  cases h with
  | name _ _ _ _ => exact hc

/-- A wildcard with a word and a bound, where the bound is read. -/
lemma readArgument_of_bound {c : Char} {word s : List Char} {bound t : FieldType}
    {ts ts' : List Token} (h : Spells (.mark '?' :: .name (c :: word) :: ts) s)
    (hc : Text.isAlphabetic c = true) (herase : erase (String.ofList (c :: word)) bound = some t)
    (hbound : ∀ q, Spells ts q → ∃ r, readType q = .ok (bound, r) ∧ Spells ts' r.1) :
    ∃ r, readArgument s = .ok (t, r) ∧ Spells ts' r.1 := by
  obtain ⟨⟨r, hr⟩, hopen, h⟩ := eat?_of_trails h.trails
  have hstarts := startsBound_of_spells h hc
  obtain ⟨⟨q, hq⟩, hword, h⟩ := readName_of_spells h
  obtain ⟨⟨p, hp⟩, ht, h⟩ := hbound _ h
  rw [readArgument, hopen]
  simp only [hstarts, hword, ht, herase, bind, Except.bind]
  exact ⟨_, rfl, h⟩

lemma head?_tokens_ne (e : Written) (ts : List Token) (c : Char) :
    (e.tokens ++ ts).head? ≠ some (.mark c) := by
  cases e
  rintro ⟨⟩

mutual

/-- **Whatever a type is written as is read back**, up to the blanks after it. -/
theorem readType_of_spells (e : Written) (ts : List Token) (s : List Char)
    (h : Spells (e.tokens ++ ts) s) (hts : Closes ts) :
    ∃ r, readType s = .ok (e.erased, r) ∧ Spells ts r.1 := by
  match e with
  | .type name arguments dimensions =>
    rw [Written.tokens_append] at h
    obtain ⟨⟨r, hr⟩, hname, h⟩ := readName_of_spells h
    obtain ⟨⟨q, hq⟩, harguments, h⟩ := readArguments_of_trails arguments dimensions ts r h hts
    obtain ⟨⟨p, hp⟩, hdims, h⟩ := readDimensions_of_trails h hts
    rw [readType]
    simp only [hname, harguments, hdims, bind, Except.bind]
    exact ⟨_, rfl, h⟩

theorem readArguments_of_trails (arguments : List WrittenArgument) (n : Nat) (ts : List Token)
    (s : List Char) (h : Trails (argumentTokens arguments ++ (dimensionTokens n ++ ts)) s)
    (hts : Closes ts) :
    ∃ r, readArguments s = .ok (erasedAll arguments, r) ∧
      Trails (dimensionTokens n ++ ts) r.1 := by
  match arguments with
  | [] =>
    have hnone : eat? '<' s = none := by
      refine eat?_eq_none h (by decide) ?_
      cases n with
      | zero => exact hts.head?_ne (by decide) (by decide)
      | succ n => rintro ⟨⟩
    rw [readArguments, hnone]
    exact ⟨_, rfl, h⟩
  | a :: arguments =>
    rw [argumentTokens_append] at h
    obtain ⟨⟨r, hr⟩, hopen, h⟩ := eat?_of_trails h
    obtain ⟨q, ha, h⟩ := readArgument_of_spells a _ _ h (closes_moreTokens _ _)
    obtain ⟨⟨p, hp⟩, hlist, h⟩ := readArgumentList_of_trails arguments _ r _ q ha h.trails
    rw [readArguments, hopen]
    simp only [hlist, bind, Except.bind]
    exact ⟨_, rfl, h⟩

theorem readArgumentList_of_trails (arguments : List WrittenArgument) (ts : List Token)
    (s : List Char) (t : FieldType) (r : Rest (Text.skipBlanks s))
    (ht : readArgument (Text.skipBlanks s) = .ok (t, r))
    (h : Trails (moreTokens arguments ++ ts) r.1) :
    ∃ r, readArgumentList s = .ok (t :: erasedAll arguments, r) ∧ Trails ts r.1 := by
  match arguments with
  | [] =>
    have hcomma : eat? ',' r.1 = none := eat?_eq_none h (by decide) (by rintro ⟨⟩)
    obtain ⟨⟨q, hq⟩, hclose, h⟩ := eat?_of_trails h
    rw [readArgumentList]
    simp only [ht, hcomma, hclose, bind, Except.bind]
    exact ⟨_, rfl, h⟩
  | a :: arguments =>
    rw [moreTokens_append] at h
    obtain ⟨⟨q, hq⟩, hcomma, h⟩ := eat?_of_trails h
    obtain ⟨p, ha, h⟩ := readArgument_of_spells a _ _ h (closes_moreTokens _ _)
    obtain ⟨⟨o, ho⟩, hlist, h⟩ := readArgumentList_of_trails arguments _ q _ p ha h.trails
    rw [readArgumentList]
    simp only [ht, hcomma, hlist, bind, Except.bind]
    exact ⟨_, rfl, h⟩

theorem readArgument_of_spells (a : WrittenArgument) (ts : List Token) (s : List Char)
    (h : Spells (a.tokens ++ ts) s) (hts : Closes ts) :
    ∃ r, readArgument s = .ok (a.erased, r) ∧ Spells ts r.1 := by
  match a with
  | .type t =>
    have hnone : eat? '?' s = none := eat?_eq_none h.trails (by decide) (head?_tokens_ne t ts _)
    obtain ⟨r, ht, h⟩ := readType_of_spells t ts s h hts
    rw [readArgument, hnone]
    exact ⟨r, ht, h⟩
  | .wildcard =>
    obtain ⟨⟨r, hr⟩, hopen, h⟩ := eat?_of_trails h.trails
    have hbound := not_startsBound h hts
    rw [readArgument, hopen]
    simp only [hbound]
    exact ⟨_, rfl, h⟩
  | .upper bound =>
    exact readArgument_of_bound h (by decide) rfl fun q hq => readType_of_spells bound ts q hq hts
  | .lower bound =>
    exact readArgument_of_bound h (by decide) rfl fun q hq => readType_of_spells bound ts q hq hts

end

/-! ### What is read is written of some tree -/

lemma Trails.of_skipBlanks {ts : List Token} {s : List Char} (h : Trails ts (Text.skipBlanks s)) :
    Trails ts s := by
  unfold Trails Text.skipBlanks at h
  rwa [List.dropWhile_idempotent] at h

theorem trails_of_readDimensions (n : Nat) (ts : List Token) (s : List Char)
    (r : { r : List Char // r.length ≤ s.length }) (h : readDimensions s = .ok (n, r))
    (hr : Trails ts r.1) : Trails (dimensionTokens n ++ ts) s := by
  rw [readDimensions] at h
  split at h
  · cases h
    exact hr.of_skipBlanks
  · rename_i q hq hopen
    split at h
    · cases h
    · rename_i p hp hclose
      obtain ⟨⟨m, o, ho⟩, hdims, h⟩ := bind_eq_ok h
      cases h
      have := trails_of_readDimensions m ts p ⟨o, ho⟩ hdims hr
      exact trails_of_eat? hopen (by decide) (trails_of_eat? hclose (by decide) this)
termination_by s.length

lemma erase_eq_some {word : String} {bound t : FieldType} (h : erase word bound = some t) :
    word = "extends" ∧ t = bound ∨ word = "super" ∧ t = named "java.lang.Object" := by
  unfold erase at h
  split at h
  · rename_i hword
    cases h
    exact .inl ⟨hword, rfl⟩
  · split at h
    · rename_i hword
      cases h
      exact .inr ⟨hword, rfl⟩
    · cases h

mutual

/-- **Whatever is read as a type is written of one** that has been erased. -/
theorem spells_of_readType (s : List Char) (t : FieldType) (r : Rest s)
    (h : readType s = .ok (t, r)) :
    ∃ e : Written, e.erased = t ∧ ∀ ts, Trails ts r.1 → Spells (e.tokens ++ ts) s := by
  rw [readType] at h
  obtain ⟨⟨name, r, hr⟩, hname, h⟩ := bind_eq_ok h
  obtain ⟨⟨arguments, q, hq⟩, harguments, h⟩ := bind_eq_ok h
  obtain ⟨⟨n, p, hp⟩, hdims, h⟩ := bind_eq_ok h
  cases h
  obtain ⟨as, rfl, has⟩ := trails_of_readArguments r arguments ⟨q, hq⟩ harguments
  refine ⟨.type name.toList as n, ?_, fun ts hts => ?_⟩
  · rw [Written.erased, String.ofList_toList]
  · rw [Written.tokens_append]
    exact spells_of_readName hname (has _ (trails_of_readDimensions n ts q _ hdims hts))
termination_by 3 * s.length + 0

theorem trails_of_readArguments (s : List Char) (l : List FieldType)
    (r : { r : List Char // r.length ≤ s.length }) (h : readArguments s = .ok (l, r)) :
    ∃ arguments, erasedAll arguments = l ∧
      ∀ ts, Trails ts r.1 → Trails (argumentTokens arguments ++ ts) s := by
  rw [readArguments] at h
  split at h
  · cases h
    exact ⟨[], rfl, fun ts hts => hts⟩
  · rename_i r hr hopen
    obtain ⟨⟨l, q, hq⟩, hlist, h⟩ := bind_eq_ok h
    cases h
    obtain ⟨a, as, rfl, has⟩ := trails_of_readArgumentList r l ⟨q, hq⟩ hlist
    refine ⟨a :: as, rfl, fun ts hts => ?_⟩
    rw [argumentTokens_append]
    exact trails_of_eat? hopen (by decide) (has ts hts)
termination_by 3 * s.length + 0

theorem trails_of_readArgumentList (s : List Char) (l : List FieldType) (r : Rest s)
    (h : readArgumentList s = .ok (l, r)) :
    ∃ a arguments, erasedAll (a :: arguments) = l ∧
      ∀ ts, Trails ts r.1 → Trails (a.tokens ++ (moreTokens arguments ++ ts)) s := by
  have hs := Text.skipBlanks_length_le s
  rw [readArgumentList] at h
  obtain ⟨⟨t, r, hr⟩, ht, h⟩ := bind_eq_ok h
  obtain ⟨a, rfl, ha⟩ := trails_of_readArgument (Text.skipBlanks s) t ⟨r, hr⟩ ht
  refine ⟨a, ?_⟩
  dsimp only at h
  split at h
  · rename_i q hq hcomma
    obtain ⟨⟨l, p, hp⟩, hlist, h⟩ := bind_eq_ok h
    cases h
    obtain ⟨b, as, rfl, has⟩ := trails_of_readArgumentList q l ⟨p, hp⟩ hlist
    refine ⟨b :: as, rfl, fun ts hts => (ha _ ?_).of_skipBlanks⟩
    rw [moreTokens_append]
    exact trails_of_eat? hcomma (by decide) (has ts hts)
  · split at h
    · rename_i q hq hclose
      cases h
      exact ⟨[], rfl, fun ts hts => (ha _ (trails_of_eat? hclose (by decide) hts)).of_skipBlanks⟩
    · cases h
termination_by 3 * s.length + 2

theorem trails_of_readArgument (s : List Char) (t : FieldType) (r : Rest s)
    (h : readArgument s = .ok (t, r)) :
    ∃ a : WrittenArgument, a.erased = t ∧ ∀ ts, Trails ts r.1 → Trails (a.tokens ++ ts) s := by
  rw [readArgument] at h
  split at h
  · obtain ⟨e, rfl, he⟩ := spells_of_readType s t r h
    exact ⟨.type e, rfl, fun ts hts => (he ts hts).trails⟩
  · rename_i r hr hopen
    have hr' := Text.skipBlanks_length_le r
    split at h
    · obtain ⟨⟨word, q, hq⟩, hword, h⟩ := bind_eq_ok h
      have hq' := Text.skipBlanks_length_le q
      obtain ⟨⟨bound, p, hp⟩, hbound, h⟩ := bind_eq_ok h
      obtain ⟨e, rfl, he⟩ := spells_of_readType (Text.skipBlanks q) bound ⟨p, hp⟩ hbound
      dsimp only at h
      split at h
      · rename_i t herase
        cases h
        have hspells : ∀ ts, Trails ts p →
            Trails (.mark '?' :: .name word.toList :: (e.tokens ++ ts)) s := fun ts hts =>
          trails_of_eat? hopen (by decide) (spells_of_readName hword (he ts hts))
        rcases erase_eq_some herase with ⟨rfl, rfl⟩ | ⟨rfl, rfl⟩
        · exact ⟨.upper e, rfl, hspells⟩
        · exact ⟨.lower e, rfl, hspells⟩
      · cases h
    · cases h
      exact ⟨.wildcard, rfl, fun ts hts => trails_of_eat? hopen (by decide) hts.of_skipBlanks⟩
termination_by 3 * s.length + 1

end

/-- **The texts of types are those of the grammar**, and are read as the one tree they are written
of, erased. -/
theorem read_eq_ok_iff (s : String) (t : FieldType) :
    (read s = .ok t ↔ ∃ e : Written, Spells e.tokens s.toList ∧ e.erased = t) ∧
      ∀ e e' : Written, Spells e.tokens s.toList → Spells e'.tokens s.toList → e = e' := by
  have hcloses : Closes [] := by rintro t ⟨⟩
  refine ⟨⟨fun h => ?_, ?_⟩, fun e e' h h' => ?_⟩
  · unfold read at h
    split at h
    · rename_i t hr ht
      cases h
      obtain ⟨e, rfl, he⟩ := spells_of_readType _ _ _ ht
      have hs := he [] Spells.nil
      rw [List.append_nil] at hs
      exact ⟨e, hs, rfl⟩
    · cases h
    · cases h
  · rintro ⟨e, h, rfl⟩
    rw [← List.append_nil e.tokens] at h
    obtain ⟨⟨r, hr⟩, ht, hnil⟩ := readType_of_spells e [] _ h hcloses
    cases spells_nil_iff.1 hnil
    unfold read
    rw [ht]
  · have := h.unique h'
    rw [← List.append_nil e.tokens, ← List.append_nil e'.tokens] at this
    exact (e.tokens_inj e' [] [] this hcloses hcloses).1

/-- Blanks may stand after any token, and the bounds of wildcards are read in their place. -/
theorem read_eq_ok_iff_wildcards :
    let s := "java.util.Map<? extends A [ ],?super B> "
    let e : Written := .type "java.util.Map".toList
      [.upper (.type "A".toList [] 1), .lower (.type "B".toList [] 0)] 0
    Spells e.tokens s.toList ∧
      read s = .ok ⟨"java.util.Map", [⟨"A", [], 1, .empty⟩, named "java.lang.Object"], 0, .empty⟩ ∧
      ∀ e' : Written, Spells e'.tokens s.toList → e' = e := by
  intro s e
  have hs : Spells e.tokens s.toList := by decide +kernel
  obtain ⟨hread, hunique⟩ := read_eq_ok_iff s e.erased
  exact ⟨hs, hread.2 ⟨e, hs, rfl⟩, fun e' h => hunique e' e h hs⟩

end SavedState.FieldType
