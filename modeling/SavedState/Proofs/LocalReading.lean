import SavedState.Proofs.StepEndings

/-!
How far the reader of a field's type looks ahead.

A step of the reader depends on the text that it takes, on the blanks after it, and on the one
character that comes next. Where that character makes it fail, whatever is behind the character
leaves the failure as it is, and one that it expects would have been taken.
-/

namespace SavedState.FieldType

variable {α β : Type} {c : Char} {s : List Char}

/-! ### Texts that begin alike -/

/-- Text `q` begins like `r`, with the same blanks. Behind them it is at its end, or goes on with
the same character or one of `other`. -/
def BeginsAlike (other q r : List Char) : Prop :=
  q.takeWhile Text.isBlank = r.takeWhile Text.isBlank ∧
    ∀ c ∈ (Text.skipBlanks q).head?, c ∈ other ∨ (Text.skipBlanks r).head? = some c

/-- The characters at which a type may end inside another one. -/
def closers : List Char := [',', '>', ']']

lemma of_mem_closers (h : c ∈ closers) : c ∈ marks := by
  have hall : closers.all (marks.contains ·) = true := by decide
  simpa using List.all_eq_true.1 hall c h

lemma skipBlanks_eq_self_iff : Text.skipBlanks s = s ↔ s.takeWhile Text.isBlank = [] := by
  cases s with
  | nil => simp [Text.skipBlanks]
  | cons c s =>
    cases hc : Text.isBlank c with
    | false => simp [skipBlanks_cons hc, hc]
    | true =>
      have hlt := (skipBlanks_suffix s).length_le
      have hne : Text.skipBlanks (c :: s) ≠ c :: s := by
        intro heq
        rw [Text.skipBlanks, List.dropWhile_cons_of_pos hc] at heq
        rw [Text.skipBlanks, heq, List.length_cons] at hlt
        omega
      simp [hne, hc]

lemma isBlank_of_skipBlanks {r : List Char} (h : Text.skipBlanks (c :: r) = c :: r) :
    Text.isBlank c = false := by
  rw [skipBlanks_eq_self_iff] at h
  cases hc : Text.isBlank c with
  | false => rfl
  | true =>
    rw [List.takeWhile_cons_of_pos hc] at h
    cases h

namespace BeginsAlike

variable {other q r : List Char}

lemma refl (other r : List Char) : BeginsAlike other r r := ⟨rfl, fun _ h => .inr h⟩

lemma mono (h : BeginsAlike [] q r) : BeginsAlike other q r :=
  ⟨h.1, fun c hc => .inr ((h.2 c hc).resolve_left List.not_mem_nil)⟩

/-- A text may end wherever there is no blank. -/
lemma of_nil (other : List Char) (hr : Text.skipBlanks r = r) : BeginsAlike other [] r :=
  ⟨(skipBlanks_eq_self_iff.1 hr).symm, fun c hc => by cases hc⟩

lemma of_cons (other : List Char) (hc : Text.isBlank c = false) (q r : List Char) :
    BeginsAlike other (c :: q) (c :: r) := by
  have hneg : ¬Text.isBlank c = true := Bool.eq_false_iff.1 hc
  refine ⟨?_, fun d hd => .inr ?_⟩
  · rw [List.takeWhile_cons_of_neg hneg, List.takeWhile_cons_of_neg hneg]
  · rw [skipBlanks_cons hc] at hd ⊢
    exact hd

lemma of_head? (other : List Char) (hr : Text.skipBlanks r = r) (h : q = [] ∨ q.head? = r.head?) :
    BeginsAlike other q r := by
  cases q with
  | nil => exact of_nil other hr
  | cons c q =>
    have hhead : r.head? = some c := by
      rcases h with h | h
      · cases h
      · exact h.symm
    obtain ⟨r, rfl⟩ := List.head?_eq_some_iff.1 hhead
    exact of_cons other (isBlank_of_skipBlanks hr) q r

lemma append (h : BeginsAlike other q r) (b : List Char) : BeginsAlike other (b ++ q) (b ++ r) := by
  induction b with
  | nil => exact h
  | cons c b ih =>
    obtain ⟨hblanks, hnext⟩ := ih
    cases hc : Text.isBlank c with
    | true =>
      refine ⟨?_, ?_⟩
      · rw [List.cons_append, List.cons_append, List.takeWhile_cons_of_pos hc,
          List.takeWhile_cons_of_pos hc, hblanks]
      · unfold Text.skipBlanks
        rw [List.cons_append, List.cons_append, List.dropWhile_cons_of_pos hc,
          List.dropWhile_cons_of_pos hc]
        exact hnext
    | false => exact of_cons other hc _ _

/-- A text does not begin with a blank where one like it does not. -/
lemma skipBlanks_eq (h : BeginsAlike other q r) (hr : Text.skipBlanks r = r) :
    Text.skipBlanks q = q := by
  rw [skipBlanks_eq_self_iff] at hr ⊢
  rw [h.1, hr]

lemma head? (h : BeginsAlike other q r) : ∀ c ∈ q.head?, c ∈ other ∨ r.head? = some c := by
  intro c hc
  cases hq : q.takeWhile Text.isBlank with
  | nil =>
    have hr : r.takeWhile Text.isBlank = [] := h.1 ▸ hq
    have := h.2 c
    rw [skipBlanks_eq_self_iff.2 hq, skipBlanks_eq_self_iff.2 hr] at this
    exact this hc
  | cons d blanks =>
    have hr : r.takeWhile Text.isBlank = d :: blanks := h.1 ▸ hq
    rw [← List.takeWhile_append_dropWhile (p := Text.isBlank) (l := q), hq] at hc
    rw [← List.takeWhile_append_dropWhile (p := Text.isBlank) (l := r), hr]
    exact .inr hc

/-- A character that ends a type may stand wherever there is no blank. -/
lemma of_closer (hc : c ∈ closers) (more : List Char) (hr : Text.skipBlanks r = r) :
    BeginsAlike closers (c :: more) r := by
  have hblank := (of_mem_marks (of_mem_closers hc)).2
  rw [skipBlanks_eq_self_iff] at hr
  refine ⟨?_, fun d hd => ?_⟩
  · rw [hr, List.takeWhile_cons_of_neg (Bool.eq_false_iff.1 hblank)]
  · rw [skipBlanks_cons hblank] at hd
    cases hd
    exact .inl hc

end BeginsAlike

lemma BeginsAlike.endsName {q r : List Char} (h : BeginsAlike closers q r) (hr : EndsName r) :
    EndsName q := by
  intro c hc
  rcases h.head? c hc with hcloser | hnext
  · exact (of_mem_marks (of_mem_closers hcloser)).1
  · exact hr c hnext

/-! ### Steps that look at the next character only -/

/-- The characters that would have been taken where reading fails. -/
def expected : TypeProblem → List Char
  | .closingBracket => [']']
  | .separator => [',', '>']
  | _ => []

lemma expected_subset (e : TypeProblem) : expected e ⊆ closers := by
  cases e <;> simp [expected, closers]

/-- What a step makes of a text is known from what it takes, and from how the rest begins. Where
it has succeeded, it also does so if the rest begins with the end of a type. Where it has failed,
a character that is expected in place of the next one is taken. -/
inductive Local (f : List Char → Ending α) : List Char → Prop where
  | ok {b r a} (h : ∀ q, BeginsAlike closers q r → f (b ++ q) = (.ok a, q)) : Local f (b ++ r)
  | error {b r e} (h : ∀ q, BeginsAlike [] q r → f (b ++ q) = (.error e, q))
      (hblank : expected e ≠ [] → Text.skipBlanks r = r)
      (hmore : ∀ c ∈ expected e, ∀ more, (f (b ++ c :: more)).2 <:+ more)
      (hkind : ∀ c, e ≠ .trailing c) : Local f (b ++ r)

namespace Local

variable {f g : List Char → Ending α}

/-- A step that behaves behind `w` like another one. -/
lemma shift {w t : List Char} (hg : Local g t)
    (hf : ∀ {q}, BeginsAlike closers q t → f (w ++ q) = g q) : Local f (w ++ t) := by
  cases hg with
  | @ok b r a h =>
    rw [← List.append_assoc]
    refine .ok (a := a) fun q hq => ?_
    rw [List.append_assoc, hf (hq.append b)]
    exact h q hq
  | @error b r e h hblank hmore hkind =>
    rw [← List.append_assoc]
    refine .error (e := e) (fun q hq => ?_) hblank (fun c hc more => ?_) hkind
    · rw [List.append_assoc, hf (hq.mono.append b)]
      exact h q hq
    · have hne : expected e ≠ [] := List.ne_nil_of_mem hc
      have hlike := BeginsAlike.of_closer (expected_subset e hc) more (hblank hne)
      rw [List.append_assoc, hf (hlike.append b)]
      exact hmore c hc more

/-- One step after another. -/
lemma andThen {next : α → List Char → Ending β} (hf : Local f s)
    (hnext : ∀ a r, f s = (.ok a, r) → Local (next a) r)
    (hsuffix : ∀ a r, (next a r).2 <:+ r) : Local (fun s => (f s).andThen next) s := by
  cases hf with
  | @ok b r a h =>
    refine (hnext a r (h r (.refl _ _))).shift fun {q} hq => ?_
    rw [h q hq]
    rfl
  | @error b r e h hblank hmore hkind =>
    refine .error (e := e) (fun q hq => ?_) hblank (fun c hc more => ?_) hkind
    · rw [h q hq]
      rfl
    · exact andThen_suffix (hmore c hc more) fun a r _ => hsuffix a r

/-- A step that takes nothing. -/
lemma pure (x : Except TypeProblem α)
    (hx : ∀ e, x = .error e → expected e = [] ∧ ∀ c, e ≠ .trailing c) :
    Local (fun s => (x, s)) s := by
  rw [← List.nil_append s]
  cases x with
  | ok a => exact .ok fun q _ => rfl
  | error e =>
    obtain ⟨hnone, hkind⟩ := hx e rfl
    refine .error (fun q _ => rfl) (absurd hnone) (fun c hc => ?_) hkind
    rw [hnone] at hc
    cases hc

lemma done (a : α) : Local (fun s => (.ok a, s)) s := .pure _ (by rintro e ⟨⟩)

lemma map (hf : Local f s) (g : α → β) :
    Local (fun s => (f s).andThen fun a r => (.ok (g a), r)) s :=
  hf.andThen (fun a _ _ => .done (g a)) fun _ r => List.suffix_refl r

/-- A step on the text behind the blanks. -/
lemma skipBlanks (h : Local f (Text.skipBlanks s)) : Local (fun s => f (Text.skipBlanks s)) s := by
  obtain ⟨blanks, hb, hs⟩ := exists_blanks s
  have hidem := skipBlanks_idem s
  generalize Text.skipBlanks s = t at h hs hidem
  subst hs
  refine h.shift fun {q} hq => ?_
  rw [skipBlanks_append hb, hq.skipBlanks_eq hidem]

/-- A step that goes on behind `c`, where `c` comes next. -/
lemma of_next {t : List Char} (hf : ∀ s r, Text.skipBlanks s = c :: r → f s = g r)
    (hc : Text.isBlank c = false) (hs : Text.skipBlanks s = c :: t) (hg : Local g t) :
    Local f s := by
  obtain ⟨blanks, hb, heq⟩ := exists_blanks s
  rw [hs, List.append_cons] at heq
  rw [heq]
  refine hg.shift fun {q} _ => hf _ q ?_
  rw [List.append_assoc, skipBlanks_append hb]
  exact skipBlanks_cons hc q

/-- A step that depends on whether `c` comes next, where it does not. -/
lemma of_not_next (hc : c ∉ closers)
    (hf : ∀ s, (Text.skipBlanks s).head? ≠ some c → f s = g s)
    (hs : (Text.skipBlanks s).head? ≠ some c) (hg : Local g s) : Local f s := by
  rw [← List.nil_append s]
  refine hg.shift fun {q} hq => hf q fun hnext => ?_
  exact (hq.2 c hnext).elim hc hs

/-- A step that fails where none of the characters that it expects comes next. -/
lemma of_refused {e : TypeProblem}
    (hf : ∀ s, (∀ c ∈ expected e, (Text.skipBlanks s).head? ≠ some c) →
      f s = (.error e, Text.skipBlanks s))
    (hmore : ∀ c ∈ expected e, ∀ s r, Text.skipBlanks s = c :: r → (f s).2 <:+ r)
    (hkind : ∀ c, e ≠ .trailing c)
    (hs : ∀ c ∈ expected e, (Text.skipBlanks s).head? ≠ some c) : Local f s := by
  obtain ⟨blanks, hb, heq⟩ := exists_blanks s
  have hidem := skipBlanks_idem s
  generalize Text.skipBlanks s = t at heq hidem hs
  subst heq
  refine .error (e := e) (fun q hq => ?_) (fun _ => hidem) (fun c hc more => ?_) hkind
  · have hskip : Text.skipBlanks (blanks ++ q) = q := by
      rw [skipBlanks_append hb, hq.skipBlanks_eq hidem]
    rw [hf, hskip]
    intro c hc hnext
    rw [hskip] at hnext
    exact (hq.head? c hnext).elim List.not_mem_nil (hs c hc)
  · have hblank := (of_mem_marks (of_mem_closers (expected_subset e hc))).2
    exact hmore c hc _ more ((skipBlanks_append hb).trans (skipBlanks_cons hblank more))

/-- A step that looks at the first character, where it takes that. -/
lemma of_head (hf : ∀ t, t.head? = s.head? → f t = g t) (hg : Local g s) (hne : (g s).2 ≠ s) :
    Local f s := by
  cases hg with
  | @ok b r a h =>
    cases b with
    | nil =>
      rw [h r (.refl _ _)] at hne
      exact absurd rfl hne
    | cons c b => exact .ok fun q hq => (hf (c :: b ++ q) rfl).trans (h q hq)
  | @error b r e h hblank hmore hkind =>
    cases b with
    | nil =>
      rw [h r (.refl _ _)] at hne
      exact absurd rfl hne
    | cons c b =>
      refine .error (fun q hq => (hf (c :: b ++ q) rfl).trans (h q hq)) hblank (fun d hd more => ?_)
        hkind
      rw [hf (c :: b ++ d :: more) rfl]
      exact hmore d hd more

end Local

/-! ### The steps of the reader -/

lemma local_readName (s : List Char) : Local (fun s => ending (readName s)) s := by
  have hs : s.takeWhile isNameChar ++ s.dropWhile isNameChar = s := List.takeWhile_append_dropWhile
  have hends := endsName_dropWhile s
  have hchars : ∀ c ∈ s.takeWhile isNameChar, isNameChar c = true :=
    List.all_eq_true.1 List.all_takeWhile
  generalize s.takeWhile isNameChar = name at hs hchars
  generalize s.dropWhile isNameChar = r at hs hends
  subst hs
  have hread : ∀ {q}, BeginsAlike closers q r → ending (readName (name ++ q)) =
      (if isName name then .ok (String.ofList name) else .error .typeName, q) := by
    intro q hq
    obtain ⟨htake, hdrop⟩ := Text.takeWhile_append_of_ends hchars (hq.endsName hends)
    rw [ending_readName, htake, hdrop]
  refine Local.shift (g := fun q =>
    (if isName name then .ok (String.ofList name) else .error .typeName, q)) (.pure _ ?_) hread
  intro e he
  split at he <;> cases he
  exact ⟨rfl, fun c => TypeProblem.noConfusion⟩

theorem local_readDimensions (s : List Char) : Local (fun s => ending (readDimensions s)) s := by
  by_cases hopen : (Text.skipBlanks s).head? = some '['
  · obtain ⟨r, hr⟩ := List.head?_eq_some_iff.1 hopen
    refine .of_next (g := closeDimension)
      (fun s r h => (ending_readDimensions s).trans (ifNext_of_next h)) (by decide) hr ?_
    by_cases hclose : (Text.skipBlanks r).head? = some ']'
    · obtain ⟨q, hq⟩ := List.head?_eq_some_iff.1 hclose
      refine .of_next (fun s r h => ifNext_of_next h) (by decide) hq ?_
      have := length_lt_of_next hr
      have := length_lt_of_next hq
      exact (local_readDimensions q).map _
    · refine .of_refused (e := .closingBracket) (fun s h => ifNext_of_not_next (h ']' ?_)) ?_
        (fun c => TypeProblem.noConfusion) ?_
      · exact List.mem_singleton_self _
      · intro c hc s q hq
        cases List.mem_singleton.1 hc
        rw [closeDimension, ifNext_of_next hq]
        exact andThen_done_suffix (readDimensions_suffix q)
      · intro c hc
        cases List.mem_singleton.1 hc
        exact hclose
  · refine .of_not_next (c := '[') (by decide)
      (fun s h => (ending_readDimensions s).trans (ifNext_of_not_next h)) hopen ?_
    exact Local.skipBlanks (f := fun s => (.ok 0, s)) (.done 0)
termination_by s.length

/-- The text of a wildcard's bound begins with a letter. -/
lemma startsBound_iff : startsBound s = true ↔ ∃ c ∈ s.head?, Text.isAlphabetic c = true := by
  cases s <;> simp [startsBound]

/-- Where another argument or the end of the arguments is expected, either is taken. -/
lemma closeArgument_expected (argument : FieldType) {r : List Char} (hc : c ∈ expected .separator)
    (h : Text.skipBlanks s = c :: r) : (closeArgument argument s).2 <:+ r := by
  rcases List.mem_pair.1 hc with rfl | rfl
  · rw [closeArgument, ifNext_of_next h]
    exact andThen_done_suffix (readArgumentList_suffix r)
  · have hclosed : closeArgument argument s = (.ok [argument], r) := by
      rw [closeArgument, ifNext_of_not_next (by simp [h]), ifNext_of_next h]
    exact hclosed ▸ List.suffix_refl r

/-- The word that leads to a bound is taken. -/
lemma local_readWildcard_of_bound (hs : startsBound s = true) (h : Local readBound s) :
    Local readWildcard s := by
  refine h.of_head (fun t ht => ?_) fun heq => ?_
  · have hstarts : startsBound t = true := startsBound_iff.2 (ht ▸ startsBound_iff.1 hs)
    rw [readWildcard, if_pos hstarts]
  · obtain ⟨c, hc, halphabetic⟩ := startsBound_iff.1 hs
    obtain ⟨r, rfl⟩ := List.head?_eq_some_iff.1 hc
    have hchar : isNameChar c = true := by simp [isNameChar, isIdentifierPart, halphabetic]
    have hle := (readBound_suffix (c :: r) fun _ q _ => readType_suffix _).length_le
    have hrest := (List.dropWhile_suffix (l := r) isNameChar).length_le
    rw [heq, List.dropWhile_cons_of_pos hchar, List.length_cons] at hle
    omega

lemma local_readWildcard_of_not_bound (hs : ¬startsBound s = true) : Local readWildcard s := by
  have hclosers : closers.all (! Text.isAlphabetic ·) = true := by decide
  rw [← List.nil_append s]
  refine Local.shift (.done (named "java.lang.Object")) fun {q} hq => ?_
  rw [List.nil_append, readWildcard, if_neg]
  intro hstarts
  obtain ⟨c, hc, halphabetic⟩ := startsBound_iff.1 hstarts
  rcases hq.head? c hc with hcloser | hnext
  · have hletter := List.all_eq_true.1 hclosers c hcloser
    rw [halphabetic] at hletter
    cases hletter
  · exact hs (startsBound_iff.2 ⟨c, hnext, halphabetic⟩)

mutual

/-- **Reading a type looks one character ahead.** -/
theorem local_readType (s : List Char) : Local (fun s => ending (readType s)) s := by
  rw [show (fun s => ending (readType s)) = _ from funext ending_readType]
  refine (local_readName s).andThen (fun name r hr => ?_) fun name r => ?_
  · obtain ⟨hlt, -⟩ := ending_eq_ok hr
    refine (local_readArguments r).andThen (fun arguments q _ => ?_) fun arguments q => ?_
    · exact (local_readDimensions q).map _
    · exact andThen_done_suffix (readDimensions_suffix q)
  · refine andThen_suffix (readArguments_suffix r) fun arguments q _ => ?_
    exact andThen_done_suffix (readDimensions_suffix q)
termination_by 3 * s.length + 0

theorem local_readArguments (s : List Char) : Local (fun s => ending (readArguments s)) s := by
  by_cases hopen : (Text.skipBlanks s).head? = some '<'
  · obtain ⟨r, hr⟩ := List.head?_eq_some_iff.1 hopen
    have := length_lt_of_next hr
    exact .of_next (fun s r h => (ending_readArguments s).trans (ifNext_of_next h)) (by decide) hr
      (local_readArgumentList r)
  · exact .of_not_next (g := fun s => (.ok [], s)) (by decide)
      (fun s h => (ending_readArguments s).trans (ifNext_of_not_next h)) hopen (.done [])
termination_by 3 * s.length + 0

theorem local_readArgumentList (s : List Char) :
    Local (fun s => ending (readArgumentList s)) s := by
  rw [show (fun s => ending (readArgumentList s)) = _ from funext ending_readArgumentList]
  have hs := Text.skipBlanks_length_le s
  refine (Local.skipBlanks (f := fun s => ending (readArgument s))
    (local_readArgument (Text.skipBlanks s))).andThen (fun argument r hr => ?_)
    fun argument r => closeArgument_suffix argument fun q _ => readArgumentList_suffix q
  obtain ⟨hlt, -⟩ := ending_eq_ok hr
  by_cases hcomma : (Text.skipBlanks r).head? = some ','
  · obtain ⟨q, hq⟩ := List.head?_eq_some_iff.1 hcomma
    have := length_lt_of_next hq
    refine .of_next (fun s r h => ifNext_of_next h) (by decide) hq ?_
    exact (local_readArgumentList q).map _
  by_cases hclose : (Text.skipBlanks r).head? = some '>'
  · obtain ⟨q, hq⟩ := List.head?_eq_some_iff.1 hclose
    refine .of_next (g := fun q => (.ok [argument], q)) (fun s r h => ?_) (by decide) hq
      (.done [argument])
    exact (ifNext_of_not_next (by simp [h])).trans (ifNext_of_next h)
  · refine .of_refused (e := .separator) (fun s h => ?_) ?_ (fun c => TypeProblem.noConfusion) ?_
    · have hcomma := h ',' (by decide)
      have hclose := h '>' (by decide)
      exact (ifNext_of_not_next hcomma).trans (ifNext_of_not_next hclose)
    · exact fun c hc s r h => closeArgument_expected argument hc h
    · intro c hc
      rcases List.mem_pair.1 hc with rfl | rfl
      · exact hcomma
      · exact hclose
termination_by 3 * s.length + 2

theorem local_readArgument (s : List Char) : Local (fun s => ending (readArgument s)) s := by
  by_cases hmark : (Text.skipBlanks s).head? = some '?'
  · obtain ⟨r, hr⟩ := List.head?_eq_some_iff.1 hmark
    have := length_lt_of_next hr
    have := Text.skipBlanks_length_le r
    refine .of_next (fun s r h => (ending_readArgument s).trans (ifNext_of_next h)) (by decide) hr
      (Local.skipBlanks (f := readWildcard) ?_)
    by_cases hstarts : startsBound (Text.skipBlanks r) = true
    · have hread : Local readBound (Text.skipBlanks r) := by
        refine (local_readName _).andThen (fun word q hq => ?_) fun word q => ?_
        · obtain ⟨hlt, -⟩ := ending_eq_ok hq
          have := Text.skipBlanks_length_le q
          refine (Local.skipBlanks (f := fun s => ending (readType s))
            (local_readType (Text.skipBlanks q))).andThen (fun bound o _ => .pure _ ?_)
            fun bound o => List.suffix_refl o
          intro e he
          cases herase : erase word bound <;> rw [herase] at he <;> cases he
          exact ⟨rfl, fun c => TypeProblem.noConfusion⟩
        · have hbound := (readType_suffix (Text.skipBlanks q)).trans (skipBlanks_suffix q)
          exact andThen_done_suffix hbound
      exact local_readWildcard_of_bound hstarts hread
    · exact local_readWildcard_of_not_bound hstarts
  · exact .of_not_next (by decide)
      (fun s h => (ending_readArgument s).trans (ifNext_of_not_next h)) hmark (local_readType s)
termination_by 3 * s.length + 1

end

end SavedState.FieldType
