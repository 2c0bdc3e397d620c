import SavedState.Proofs.Serializability

/-!
Arrays of arrays.

How deep an array is does not matter beyond its first dimension. An array of arrays has no
accessor of its own, so it is serialized or refused, and which of the two is asked of the type of
its innermost entries. The same is asked of a plain array that has no accessor either.
-/

namespace SavedState.Resolver

open FieldType

variable {t : FieldType} {a : Accessor} {n : Nat}

/-- Whether there is an accessor for arrays with entries of type `t`, serialization aside. -/
def HasArrayAccessor (t : FieldType) : Prop :=
  t.arguments = [] ∧ t.name ∈ arrays.map (·.1) ∨ t.isSubtype parcelable = true ∨
    t.isSubtype charSequence = true

/-- Whether arrays with innermost entries of type `t` are serialized, where nothing else keeps
them. -/
def SerializedInArrays (t : FieldType) : Prop :=
  t.name ∈ primitives ∨ t.name ∈ serializableClasses ∨
    t.isSubtype "java.io.Serializable" = true ∨ t.isSubtype "java.lang.Enum" = true

instance (t : FieldType) : Decidable (HasArrayAccessor t) :=
  inferInstanceAs (Decidable (_ ∧ _ ∨ _ ∨ _))

instance (t : FieldType) : Decidable (SerializedInArrays t) :=
  inferInstanceAs (Decidable (_ ∨ _ ∨ _ ∨ _))

/-! ### The first dimension -/

lemma dimensions_of_not_isArray (ht : t.isArray = false) : t.dimensions = 0 := by
  simpa [isArray] using ht

lemma without_dimensions (ht : t.isArray = false) : { t with dimensions := 0 } = t := by
  have hzero := dimensions_of_not_isArray ht
  cases t
  cases hzero
  rfl

lemma specific?_of_one_dimension (ht : t.isArray = false) :
    specific? { t with dimensions := 1 } = array? t := by
  simp [specific?, component?, without_dimensions ht, ht]

/-- Entries of an array of arrays are arrays. -/
lemma specific?_of_more_dimensions (hn : 2 ≤ n) : specific? { t with dimensions := n } = none := by
  obtain ⟨k, rfl⟩ := Nat.exists_eq_add_of_le' hn
  rfl

lemma array?_ne_serializable (h : array? t = some a) : a ≠ .serializable := by
  have htable : ∀ e ∈ arrays, e.2 ≠ .serializable := by decide
  unfold array? at h
  rcases Option.or_eq_some_iff.1 h with hplain | ⟨-, hsubtype⟩
  · exact htable _ (of_plain? hplain).2
  · split_ifs at hsubtype <;> cases hsubtype <;> decide

/-! ### All others -/

/-- The question is the same at every depth. -/
lemma isSerializable_iff_of_pos (ht : t.isArray = false) (hn : 0 < n) :
    isSerializable { t with dimensions := n } = true ↔ SerializedInArrays t := by
  have hsees : SeesSerializable { t with dimensions := n } ↔ t.name ∈ serializableClasses ∨
      t.isSubtype "java.io.Serializable" = true ∨ t.isSubtype "java.lang.Enum" = true := by
    unfold SeesSerializable
    rw [without_dimensions ht]
  rw [isSerializable, serializableWith_iff, hsees, and_iff_right hn]
  rfl

lemma render_withDimensions (ht : t.isArray = false) (n : Nat) :
    ({ t with dimensions := n } : FieldType).render = t.render ++ brackets n := by
  have hnone : brackets t.dimensions = "" := by
    rw [dimensions_of_not_isArray ht]
    rfl
  rw [render_eq, render_eq, hnone, String.append_empty, String.append_assoc]

/-- What is answered for an array that has no accessor of its own. -/
lemma bundle_of_no_accessor (ht : t.isArray = false) (hn : 0 < n)
    (hnone : specific? { t with dimensions := n } = none) :
    bundle { t with dimensions := n } = if SerializedInArrays t then .ok .serializable
      else .error ⟨t.render ++ brackets n⟩ := by
  have hserializable := isSerializable_iff_of_pos ht hn
  rw [← render_withDimensions ht]
  by_cases hs : SerializedInArrays t
  · rw [if_pos hs, bundle_eq_ok_iff]
    exact Or.inr ⟨hnone, hserializable.2 hs, rfl⟩
  · rw [if_neg hs, bundle_eq_error_iff, exists_bundle_eq_ok_iff, hnone, hserializable]
    rintro (h | h)
    · cases h
    · exact hs h

/-- **Depth does not matter beyond one.** An array of arrays is serialized if its innermost
entries are primitive or seen to be serializable, and else refused by its full text, however deep
it is. So is an array of one dimension, unless there is an accessor for it. -/
theorem depth_immaterial_beyond_one (t : FieldType) (ht : t.isArray = false) :
    let answer (n : Nat) := bundle { t with dimensions := n }
    let answerOfDeep (n : Nat) : Except Unsupported Accessor :=
      if SerializedInArrays t then .ok .serializable else .error ⟨t.render ++ brackets n⟩
    (∀ n, 2 ≤ n → answer n = answerOfDeep n) ∧
      (¬HasArrayAccessor t → answer 1 = answerOfDeep 1) ∧
      (HasArrayAccessor t → ∃ a, a ≠ .serializable ∧ answer 1 = .ok a) := by
  refine ⟨fun n hn => ?_, fun hnot => ?_, fun hhas => ?_⟩
  · exact bundle_of_no_accessor ht (by omega) (specific?_of_more_dimensions hn)
  · have hnone : array? t = none := by
      rw [← Option.not_isSome_iff_eq_none, isSome_array?_iff]
      exact hnot
    exact bundle_of_no_accessor ht Nat.one_pos ((specific?_of_one_dimension ht).trans hnone)
  · obtain ⟨a, ha⟩ := Option.isSome_iff_exists.1 (isSome_array?_iff.2 hhas)
    refine ⟨a, array?_ne_serializable ha, bundle_eq_ok_iff.2 (Or.inl ?_)⟩
    exact (specific?_of_one_dimension ht).trans ha

/-- Enums that are parcelable as well, and maps, which are neither. -/
theorem depth_immaterial_beyond_one_modes :
    let mode : FieldType :=
      ⟨"a.Mode", [], 0, .ofList ["java.lang.Enum", "android.os.Parcelable"]⟩
    let map : FieldType := ⟨"java.util.Map", [named "java.lang.String", ⟨"int", [], 1, .empty⟩], 0,
      .empty⟩
    (mode.isArray = false ∧ map.isArray = false) ∧ (HasArrayAccessor mode ∧ ¬HasArrayAccessor map) ∧
      (∃ a, a ≠ .serializable ∧ bundle { mode with dimensions := 1 } = .ok a) ∧
      (∀ n, 2 ≤ n → bundle { mode with dimensions := n } = .ok .serializable) ∧
      bundle { map with dimensions := 1 } = .error ⟨"java.util.Map<java.lang.String, int[]>[]"⟩ ∧
      bundle { map with dimensions := 3 } =
        .error ⟨"java.util.Map<java.lang.String, int[]>[][][]"⟩ := by
  intro mode map
  have hmode : SerializedInArrays mode := by decide +kernel
  have hmap : ¬SerializedInArrays map := by decide +kernel
  have hhas : HasArrayAccessor mode := by decide +kernel
  have hnot : ¬HasArrayAccessor map := by decide +kernel
  obtain ⟨hdeep, -, hplain⟩ := depth_immaterial_beyond_one mode rfl
  obtain ⟨hdeeper, hone, -⟩ := depth_immaterial_beyond_one map rfl
  refine ⟨⟨rfl, rfl⟩, ⟨hhas, hnot⟩, hplain hhas, fun n hn => ?_, ?_, ?_⟩
  · exact (hdeep n hn).trans (if_pos hmode)
  · exact (hone hnot).trans (if_neg hmap)
  · exact (hdeeper 3 (by decide)).trans (if_neg hmap)

end SavedState.Resolver
