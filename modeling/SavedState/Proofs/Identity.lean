import SavedState.Proofs.ProperTypes

/-!
Which declaring types are the same.

Types are compared, ordered and hashed by their segments, and these three agree. Where no segment
of a package is empty, the segments are those of the qualified name, so that the same types have
one name and one artifact, wherever the package ends.
-/

namespace SavedState

/-- Whether a comparison is a total order of types, where `same` types count as one. -/
structure DeclaringType.Orders (compare : DeclaringType → DeclaringType → Ordering)
    (same : DeclaringType → DeclaringType → Bool) : Prop where
  swap : ∀ a b, compare b a = (compare a b).swap
  total : ∀ a b, (compare a b).isLE = true ∨ (compare b a).isLE = true
  trans : ∀ a b c, (compare a b).isLE = true → (compare b c).isLE = true →
    (compare a c).isLE = true
  antisymm : ∀ a b, (compare a b).isLE = true → (compare b a).isLE = true → same a b = true
  eq_iff : ∀ a b, compare a b = .eq ↔ same a b = true

namespace DeclaringType

lemma same_equivalence : Equivalence fun a b : DeclaringType => a.same b = true :=
  ⟨same_refl, same_symm, same_trans⟩

instance : Std.TransCmp compare where
  eq_swap {a b} :=
    @Std.OrientedCmp.eq_swap _ (List.compareLex Text.compareTexts) _ a.segments b.segments
  isLE_trans {a b c} :=
    @Std.TransCmp.isLE_trans _ (List.compareLex Text.compareTexts) _ a.segments b.segments
      c.segments

lemma orders_compare : Orders compare same where
  swap a b := Std.OrientedCmp.eq_swap
  total a b := by
    rw [@Std.OrientedCmp.eq_swap _ compare _ b a]
    cases a.compare b <;> decide
  trans a b c := Std.TransCmp.isLE_trans
  antisymm a b hab hba := by
    rw [@Std.OrientedCmp.eq_swap _ compare _ b a] at hba
    rw [← compare_eq_eq]
    cases h : a.compare b with
    | eq => rfl
    | lt => rw [h] at hba; cases hba
    | gt => rw [h] at hab; cases hab
  eq_iff a b := compare_eq_eq

variable {a b : DeclaringType}

/-- A hash cannot tell the same types apart, and no others are alike to every hash. -/
lemma same_iff_feed_eq : a.same b = true ↔
    ∀ (σ : Type) (write : String → σ → σ) (state : σ), a.feed write state = b.feed write state := by
  rw [same_iff]
  constructor
  · intro h σ write state
    rw [feed, h, feed]
  · intro h
    -- a hash that keeps all it takes in, the last text first
    have hall := h (List String) List.cons []
    simpa [feed] using hall

lemma artifact_eq_iff {suffix : String} :
    (HelperName.of a suffix).artifact = (HelperName.of b suffix).artifact ↔
      a.qualified = b.qualified :=
  String.append_left_inj suffix

/-- **Equality, order and hash of declaring types agree**, and where no segment of a package is
empty, the qualified names and the artifacts tell the same. -/
theorem identity_coherent :
    (Equivalence fun a b : DeclaringType => a.same b = true) ∧
    Orders compare same ∧
    (∀ a b : DeclaringType, a.same b = true ↔
      ∀ (σ : Type) (write : String → σ → σ) (state : σ),
        a.feed write state = b.feed write state) ∧
    ∀ a b : DeclaringType, a.IsGapless → b.IsGapless →
      (a.same b = true ↔ a.qualified = b.qualified) ∧
      ∀ suffix, a.same b = true ↔
        (HelperName.of a suffix).artifact = (HelperName.of b suffix).artifact := by
  refine ⟨same_equivalence, orders_compare, fun a b => same_iff_feed_eq, fun a b ha hb => ?_⟩
  have hqualified := (ha.qualified_eq_iff hb).symm
  exact ⟨hqualified, fun suffix => hqualified.trans artifact_eq_iff.symm⟩

/-- One type with three places for the end of its package comes before another one. Of a package
with an empty segment the same type has another name. -/
theorem identity_coherent_moved_boundary :
    let nested : DeclaringType := ⟨"a", "B.C"⟩
    let packaged : DeclaringType := ⟨"a.B", "C"⟩
    let unpackaged : DeclaringType := ⟨"", "a.B.C"⟩
    let later : DeclaringType := ⟨"a.B", "D"⟩
    let gapped : DeclaringType := ⟨"a..B", "C"⟩
    (nested.IsGapless ∧ packaged.IsGapless ∧ unpackaged.IsGapless) ∧
      (nested.same packaged = true ∧ nested.same unpackaged = true) ∧
      (HelperName.of nested "$$Icicle").artifact = (HelperName.of unpackaged "$$Icicle").artifact ∧
      ((nested.compare packaged).isLE = true ∧ (packaged.compare later).isLE = true ∧
        (nested.compare later).isLE = true) ∧
      gapped.same packaged = true ∧ ¬gapped.IsGapless ∧ gapped.qualified ≠ packaged.qualified := by
  intro nested packaged unpackaged later gapped
  obtain ⟨-, horder, -, hnames⟩ := identity_coherent
  have hn : nested.IsGapless := by decide +kernel
  have hp : packaged.IsGapless := by decide +kernel
  have hu : unpackaged.IsGapless := by decide +kernel
  have hle : (nested.compare packaged).isLE = true := by decide +kernel
  have hge : (packaged.compare nested).isLE = true := by decide +kernel
  have hlater : (packaged.compare later).isLE = true := by decide +kernel
  have hsame : nested.same unpackaged = true := (hnames _ _ hn hu).1.2 (by decide +kernel)
  refine ⟨⟨hn, hp, hu⟩, ⟨horder.antisymm _ _ hle hge, hsame⟩, ?_,
    ⟨hle, hlater, horder.trans _ _ _ hle hlater⟩, by decide +kernel, by decide +kernel,
    by decide +kernel⟩
  exact ((hnames _ _ hn hu).2 _).1 hsame

end DeclaringType

end SavedState
