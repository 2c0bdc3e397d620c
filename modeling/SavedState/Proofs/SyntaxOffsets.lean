import SavedState.Proofs.LocalReading

/-!
Where a text stops being a type.

The text of a rejection tells the problem and an offset in bytes. Where a bracket, a comma or the
end of the arguments is missing, the offset is that of the character that stands in its place, or
the length of a text that ends there. Where a character is left behind a type, it is the offset
behind that character.
-/

namespace SavedState

/-- Beginnings of a text that take the same number of bytes are the same. -/
lemma Text.eq_of_byteLength_eq {a b s : List Char} (ha : a <+: s) (hb : b <+: s)
    (h : byteLength a = byteLength b) : a = b := by
  induction a generalizing b s with
  | nil =>
    cases b with
    | nil => rfl
    | cons d b =>
      have := Char.utf8Size_pos d
      simp only [byteLength] at h
      omega
  | cons c a ih =>
    cases b with
    | nil =>
      have := Char.utf8Size_pos c
      simp only [byteLength] at h
      omega
    | cons d b =>
      cases s with
      | nil => cases List.prefix_nil.1 ha
      | cons e s =>
        obtain ⟨rfl, hfront⟩ := List.cons_prefix_cons.1 ha
        obtain ⟨rfl, hfront'⟩ := List.cons_prefix_cons.1 hb
        simp only [byteLength, Nat.add_left_cancel_iff] at h
        rw [ih hfront hfront' h]

/-! ### What a rejection says -/

lemma append_space_inj {a b x y : List Char} (hx : ' ' ∉ x) (hy : ' ' ∉ y)
    (h : a ++ ' ' :: x = b ++ ' ' :: y) : a = b ∧ x = y := by
  rcases List.append_eq_append_iff.1 h with ⟨c, rfl, hc⟩ | ⟨c, rfl, hc⟩
  · cases c with
    | nil => exact ⟨(List.append_nil a).symm, (List.cons.inj hc).2⟩
    | cons d c =>
      rw [(List.cons.inj hc).2] at hx
      simp at hx
  · cases c with
    | nil => exact ⟨List.append_nil b, (List.cons.inj hc).2.symm⟩
    | cons d c =>
      rw [(List.cons.inj hc).2] at hy
      simp at hy

lemma space_not_mem_repr (n : Nat) : ' ' ∉ n.repr.toList := by
  intro h
  rw [Nat.toList_repr] at h
  have := Nat.isDigit_of_mem_toDigits (by decide) (by decide) h
  cases this

lemma TypeProblem.message_inj {problem problem' : TypeProblem}
    (h : problem.message = problem'.message) : problem = problem' := by
  -- the first and the last character tell the texts with a part of the input from all others
  have hends := congrArg (fun m => (m.toList.head?, m.toList.getLast?)) h
  cases problem <;> cases problem' <;>
    simp [message, List.getLast?_cons] at h hends ⊢ <;> assumption

namespace FieldType

/-- Text `s` is rejected with the message of `problem` at an offset. -/
def Rejects (s : String) (problem : TypeProblem) (p : Nat) : Prop :=
  ∃ e, read s = .error e ∧
    e.message = "invalid type '" ++ s ++ "': " ++ problem.message ++ " at offset " ++ p.repr

/-- What the reader of the whole text makes of that of a type. -/
lemma read_of_ending (s : String) : read s = match ending (readType s.toList) with
    | (.ok t, []) => .ok t
    | (.ok _, c :: r) => .error (.unexpected s (.trailing c) (offset s.toList r))
    | (.error e, r) => .error (.unexpected s e (offset s.toList r)) := by
  unfold read
  split <;> rename_i h <;> rw [h] <;> rfl

lemma rejects_iff {s : String} {problem : TypeProblem} {p : Nat} :
    Rejects s problem p ↔ read s = .error (.unexpected s problem p) := by
  constructor
  · rintro ⟨e, he, hmessage⟩
    obtain ⟨problem', p', rfl⟩ : ∃ problem' p', e = .unexpected s problem' p' := by
      rw [read_of_ending] at he
      split at he <;> cases he <;> exact ⟨_, _, rfl⟩
    -- the digits of the offset are what comes behind the last space
    have hsplit : ∀ a n, (a ++ " at offset " ++ Nat.repr n).toList =
        (a ++ " at offset").toList ++ ' ' :: (Nat.repr n).toList := by
      intro a n
      simp
    have hleft := hsplit ("invalid type '" ++ s ++ "': " ++ problem'.message) p'
    have hright := hsplit ("invalid type '" ++ s ++ "': " ++ problem.message) p
    have hlists := hleft.symm.trans ((congrArg String.toList hmessage).trans hright)
    obtain ⟨htext, hdigits⟩ :=
      append_space_inj (space_not_mem_repr p') (space_not_mem_repr p) hlists
    rw [String.toList_inj, String.append_left_inj, String.append_right_inj] at htext
    rw [Nat.toList_repr, Nat.toList_repr] at hdigits
    have hoffset : p' = p := by
      rw [← Nat.ofDigitChars_toDigits (b := 10) (n := p') (by decide) (by decide), hdigits,
        Nat.ofDigitChars_toDigits (by decide) (by decide)]
    have hproblem := TypeProblem.message_inj htext
    subst hproblem hoffset
    exact he
  · exact fun h => ⟨_, h, rfl⟩

/-- The offset behind a part of a text. -/
lemma offset_append (b r : List Char) : offset (b ++ r) r = Text.byteLength b := by
  rw [offset, Text.byteLength_append, Nat.add_sub_cancel]

lemma offset_append_cons (b r : List Char) (c : Char) :
    offset (b ++ c :: r) r = Text.byteLength b + c.utf8Size := by
  rw [List.append_cons, offset_append, Text.byteLength_append]
  rfl

lemma lt_offset {b more r : List Char} (c : Char) (h : r <:+ more) :
    Text.byteLength b < offset (b ++ c :: more) r := by
  obtain ⟨d, rfl⟩ := h
  have hc := Char.utf8Size_pos c
  have hsplit : b ++ c :: (d ++ r) = b ++ c :: d ++ r := by simp
  rw [hsplit, offset_append, Text.byteLength_append, Text.byteLength]
  omega

variable {l : List Char} {p : Nat}

/-- What is left behind a type. -/
lemma exists_of_trailing {c : Char}
    (h : read (String.ofList l) = .error (.unexpected (String.ofList l) (.trailing c) p)) :
    ∃ before after, l = before ++ c :: after ∧ p = Text.byteLength before + c.utf8Size ∧
      Text.isBlank c = false ∧ (∃ t, read (String.ofList before) = .ok t) ∧
      ∀ more, let s := String.ofList (before ++ c :: more)
        read s = .error (.unexpected s (.trailing c) p) := by
  rw [read_of_ending, String.toList_ofList] at h
  have hlocal := local_readType l
  cases hlocal with
  | @error b r e hread hblank hmore hkind =>
    rw [hread r (.refl _ _)] at h
    cases h
    exact absurd rfl (hkind c)
  | @ok b r t hread =>
    have hrun := hread r (.refl _ _)
    rw [hrun] at h
    cases r with
    | nil => cases h
    | cons d r =>
      cases h
      have hskip := skipBlanks_of_readType hrun
      have hblank := isBlank_of_skipBlanks hskip
      refine ⟨b, r, rfl, offset_append_cons b r c, hblank, ⟨t, ?_⟩, fun more => ?_⟩
      · have hcut := hread [] (.of_nil _ hskip)
        rw [List.append_nil] at hcut
        rw [read_of_ending, String.toList_ofList, hcut]
      · dsimp only
        rw [read_of_ending, String.toList_ofList, hread _ (.of_cons _ hblank more r)]
        dsimp only
        rw [offset_append_cons, offset_append_cons]

/-- What stands in the place of a character that is missed. -/
lemma exists_of_missed {problem : TypeProblem} (hproblem : expected problem ≠ [])
    (h : read (String.ofList l) = .error (.unexpected (String.ofList l) problem p)) :
    ∃ before rest, l = before ++ rest ∧ p = Text.byteLength before ∧
      (∀ c ∈ rest.head?, Text.isBlank c = false ∧ c ∉ expected problem) ∧
      (∀ more, more = [] ∨ more.head? = rest.head? →
        let s := String.ofList (before ++ more)
        read s = .error (.unexpected s problem p)) ∧
      ∀ c ∈ expected problem, ∀ more problem' p', let s := String.ofList (before ++ c :: more)
        read s = .error (.unexpected s problem' p') → p < p' := by
  rw [read_of_ending, String.toList_ofList] at h
  have hlocal := local_readType l
  cases hlocal with
  | @ok b r t hread =>
    rw [hread r (.refl _ _)] at h
    cases r with
    | nil => cases h
    | cons d r =>
      cases h
      exact absurd rfl hproblem
  | @error b r e hread hblank hmore hkind =>
    rw [hread r (.refl _ _)] at h
    cases h
    have hskip := hblank hproblem
    refine ⟨b, r, rfl, offset_append b r, fun c hc => ?_, fun more hlike => ?_,
      fun c hc more problem' p' h => ?_⟩
    · obtain ⟨r, rfl⟩ := List.head?_eq_some_iff.1 hc
      refine ⟨isBlank_of_skipBlanks hskip, fun hexpected => ?_⟩
      -- the character would have been taken
      have hle := (hmore c hexpected r).length_le
      rw [hread _ (.refl _ _), List.length_cons] at hle
      omega
    · dsimp only
      rw [read_of_ending, String.toList_ofList, hread _ (.of_head? _ hskip hlike)]
      dsimp only
      rw [offset_append, offset_append]
    · have hsuffix := hmore c hc more
      rw [offset_append]
      rw [read_of_ending, String.toList_ofList] at h
      -- whatever is wrong with the text is found behind the character
      split at h <;> rename_i hend <;> rw [hend] at hsuffix <;> cases h
      · exact lt_offset c ((List.suffix_cons _ _).trans hsuffix)
      · exact lt_offset c hsuffix

/-- **Where a text stops being a type.** A character that is left behind a type is named with the
offset behind it, so never with its own: the text before the character is a type, and the text
before the offset is none. A bracket, a comma or the end of the arguments is missed at the offset
of the character in its place, or at the end of the text: no text that goes on with this character
is read further, and any text that goes on with what is missed is. -/
theorem syntax_error_offsets (s : String) (p : Nat) :
    (∀ c, Rejects s (.trailing c) p →
      (∃ before after, s.toList = before ++ c :: after ∧
        p = Text.byteLength before + c.utf8Size ∧ Text.isBlank c = false ∧
        (∃ t, read (String.ofList before) = .ok t) ∧
        ∀ more, Rejects (String.ofList (before ++ c :: more)) (.trailing c) p) ∧
      ∀ front t, front <+: s.toList → Text.byteLength front = p →
        read (String.ofList front) ≠ .ok t) ∧
    ∀ problem, problem = .closingBracket ∨ problem = .separator → Rejects s problem p →
      ∃ before rest, s.toList = before ++ rest ∧ p = Text.byteLength before ∧
        (∀ c ∈ rest.head?, Text.isBlank c = false ∧ c ∉ expected problem) ∧
        (∀ more, more = [] ∨ more.head? = rest.head? →
          Rejects (String.ofList (before ++ more)) problem p) ∧
        ∀ c ∈ expected problem, ∀ more problem' p',
          Rejects (String.ofList (before ++ c :: more)) problem' p' → p < p' := by
  simp only [rejects_iff]
  refine ⟨fun c h => ?_, fun problem hproblem h => ?_⟩
  · rw [← String.ofList_toList (s := s)] at h
    have hbehind := exists_of_trailing h
    refine ⟨hbehind, fun front t hfront hlength ht => ?_⟩
    obtain ⟨before, after, hs, hp, -, -, hrejected⟩ := hbehind
    have hupto : before ++ [c] <+: s.toList := ⟨after, by rw [hs, ← List.append_cons]⟩
    have hsame : front = before ++ [c] := by
      apply Text.eq_of_byteLength_eq hfront hupto
      rw [hlength, hp, Text.byteLength_append]
      rfl
    rw [hsame, hrejected []] at ht
    cases ht
  · rw [← String.ofList_toList (s := s)] at h
    refine exists_of_missed ?_ h
    rcases hproblem with rfl | rfl <;> simp [expected]

/-- The bracket in `int]` stands at offset 3, and is named with offset 4. The letter in the place of
a missing bracket is named with its own offset, which counts bytes. -/
theorem syntax_error_offsets_brackets :
    (Rejects "int]" (.trailing ']') 4 ∧ Rejects "é[ x" .closingBracket 4) ∧
      ((∃ before after, "int]".toList = before ++ ']' :: after ∧ Text.byteLength before = 3 ∧
          ∃ t, read (String.ofList before) = .ok t) ∧
        ∀ front t, front <+: "int]".toList → Text.byteLength front = 4 →
          read (String.ofList front) ≠ .ok t) ∧
      ∃ before rest, "é[ x".toList = before ++ rest ∧ Text.byteLength before = 4 ∧
        ∀ more problem p, Rejects (String.ofList (before ++ ']' :: more)) problem p → 4 < p := by
  have hbehind : Rejects "int]" (.trailing ']') 4 := rejects_iff.2 (by decide +kernel)
  have hmissed : Rejects "é[ x" .closingBracket 4 := rejects_iff.2 (by decide +kernel)
  obtain ⟨⟨before, after, hs, hp, -, htype, -⟩, hnone⟩ :=
    (syntax_error_offsets "int]" 4).1 _ hbehind
  have hsize : ']'.utf8Size = 1 := by decide
  have hbefore : Text.byteLength before = 3 := by omega
  obtain ⟨before', rest, hs', hp', -, -, htaken⟩ :=
    (syntax_error_offsets "é[ x" 4).2 _ (.inl rfl) hmissed
  exact ⟨⟨hbehind, hmissed⟩, ⟨⟨before, after, hs, hbefore, htype⟩, hnone⟩,
    ⟨before', rest, hs', hp'.symm, htaken ']' (List.mem_singleton_self _)⟩⟩

end FieldType

end SavedState
