import SavedState.Proofs.Ranking

/-!
Which classes can be kept in a bundle, whatever the number of dimensions.

What the hierarchy of a manifest tells is inherited: a class is serializable if a path of
supertypes leads from it to `java.io.Serializable` or to `java.lang.Enum`. The table of the
classes that are serializable in any case is asked for the class of the field alone. So a class
that extends one of the table is not kept on that account, and the hierarchy has to tell of the
other class what the table says of it anyway.
-/

namespace SavedState

open FieldType Resolver

namespace Hierarchy

variable (h : Hierarchy) (n : String)

/-- The type of a field that is written as a name with brackets. -/
def typed (d : Nat) : FieldType := { (named n).inherit h.closed.parents with dimensions := d }

/-- Whether the hierarchy tells that a class is serializable. -/
def TellsSerializable : Prop :=
  h.Reaches n "java.io.Serializable" ∨ h.Reaches n "java.lang.Enum"

/-- Whether a class is seen to be serializable. -/
def SeesSerializable : Prop := n ∈ serializableClasses ∨ h.TellsSerializable n

/-- Whether a bundle has another accessor than that for what is serializable, and beyond one
dimension, where there is no other, whether the entries are primitive. -/
def HasAccessor : Nat → Prop
  | 0 => n ∈ scalars.map (·.1) ∨
      n ≠ "android.util.SparseArray" ∧ (h.Reaches n parcelable ∨ h.Reaches n charSequence)
  | 1 => n ∈ arrays.map (·.1) ∨ h.Reaches n parcelable ∨ h.Reaches n charSequence
  | _ + 2 => n ∈ primitives

/-- All fields that are written with the name and that many brackets are kept. -/
def Keeps (d : Nat) : Prop :=
  ∀ e : ManifestEntry, e.type = n ++ brackets d →
    ∃ x a, e.toElement h.closed = .ok x ∧ bundle x.type = .ok a

/-- All fields that are written with the name and that many brackets are refused. -/
def Refuses (d : Nat) : Prop :=
  ∀ e : ManifestEntry, e.type = n ++ brackets d →
    ∃ x, e.toElement h.closed = .ok x ∧ bundle x.type = .error ⟨n ++ brackets d⟩

end Hierarchy

variable {h : Hierarchy} {n c : String} {d : Nat} {t : FieldType}

/-! ### Questions -/

namespace Resolver

lemma isSome_lookup_iff {table : List (String × Accessor)} :
    (table.lookup n).isSome = true ↔ n ∈ table.map (·.1) := by
  rw [Option.isSome_iff_ne_none, ne_eq, List.lookup_eq_none_iff, List.mem_map, not_forall]
  refine exists_congr fun e => ?_
  rw [Classical.not_imp, bne_iff_ne, not_not, eq_comm]

lemma isSome_ite_iff {p : Prop} [Decidable p] {a : Accessor} {x : Option Accessor} :
    (if p then some a else x).isSome = true ↔ p ∨ x.isSome = true := by
  split <;> simp [*]

lemma isSome_plain?_iff {table : List (String × Accessor)} :
    (plain? table t).isSome = true ↔ t.arguments = [] ∧ t.name ∈ table.map (·.1) := by
  unfold plain?
  rw [← isSome_lookup_iff]
  by_cases ht : t.arguments = [] <;> simp [ht]

/-- Without arguments, collections have no accessor of their own. -/
lemma isSome_scalar?_iff (ht : t.arguments = []) : (scalar? t).isSome = true ↔
    t.name ∈ scalars.map (·.1) ∨ t.name ≠ "java.util.ArrayList" ∧
      t.name ≠ "android.util.SparseArray" ∧
      (t.isSubtype parcelable = true ∨ t.isSubtype charSequence = true) := by
  have hlist : arrayList? t.arguments = none := by simp [arrayList?, ht]
  have hsparse : sparseArray? t.arguments = none := by simp [sparseArray?, ht]
  rw [scalar?, Option.isSome_or, Bool.or_eq_true, isSome_plain?_iff, and_iff_right ht, hlist,
    hsparse]
  refine or_congr_right ?_
  by_cases he : t.name = "java.util.ArrayList"
  · simp [he]
  by_cases hs : t.name = "android.util.SparseArray"
  · simp [hs]
  rw [if_neg he, if_neg hs, isSome_ite_iff, isSome_ite_iff]
  simp [he, hs]

lemma isSome_array?_iff : (array? t).isSome = true ↔
    t.arguments = [] ∧ t.name ∈ arrays.map (·.1) ∨ t.isSubtype parcelable = true ∨
      t.isSubtype charSequence = true := by
  rw [array?, Option.isSome_or, Bool.or_eq_true, isSome_plain?_iff, isSome_ite_iff,
    isSome_ite_iff]
  simp

/-- Whether a type without its dimensions is seen to be serializable. -/
def SeesSerializable (t : FieldType) : Prop :=
  t.name ∈ serializableClasses ∨
    ({ t with dimensions := 0 } : FieldType).isSubtype "java.io.Serializable" = true ∨
    ({ t with dimensions := 0 } : FieldType).isSubtype "java.lang.Enum" = true

/-- What is asked of an array is asked of its entries, at last of those that are no arrays. -/
lemma serializableWith_iff (k : Nat) : serializableWith t k = true ↔
    0 < k ∧ t.name ∈ primitives ∨ SeesSerializable t := by
  induction k with
  | zero =>
    rw [serializableWith, Bool.or_eq_true, Bool.or_eq_true, List.contains_iff_mem, or_assoc]
    exact ⟨Or.inr, fun hk => hk.resolve_left fun hk => Nat.lt_irrefl 0 hk.1⟩
  | succ k ih =>
    rw [serializableWith, Bool.or_eq_true, ih, List.contains_iff_mem]
    simp only [Nat.succ_pos, true_and]
    tauto

lemma exists_bundle_eq_ok_iff : (∃ a, bundle t = .ok a) ↔
    (specific? t).isSome = true ∨ isSerializable t = true := by
  simp only [bundle_eq_ok_iff, exists_or, ← Option.isSome_iff_exists]
  cases hs : specific? t <;> simp

lemma bundle_eq_error_iff : bundle t = .error ⟨t.render⟩ ↔ ¬∃ a, bundle t = .ok a := by
  unfold bundle
  cases accessor? t <;> simp

end Resolver

namespace Hierarchy

lemma isSubtype_typed {x : String} : (h.typed n 0).isSubtype x = true ↔ h.Reaches n x :=
  isSubtype_inherit_named

lemma render_typed : (h.typed n d).render = n ++ brackets d := render_of_no_arguments rfl

/-- Of an array it is asked at last whether its class is serializable. -/
lemma serializableWith_typed (k : Nat) : serializableWith (h.typed n d) k = true ↔
    0 < k ∧ n ∈ primitives ∨ h.SeesSerializable n := by
  have hsees : Resolver.SeesSerializable (h.typed n d) ↔ h.SeesSerializable n :=
    or_congr_right (or_congr isSubtype_typed isSubtype_typed)
  rw [serializableWith_iff, hsees]
  rfl

lemma mem_tables_of_primitive :
    ∀ n ∈ primitives, n ∈ scalars.map (·.1) ∧ n ∈ arrays.map (·.1) := by
  decide

/-- A primitive type fits, with and without dimensions. -/
lemma hasAccessor_of_primitive (hn : n ∈ primitives) : h.HasAccessor n d := by
  obtain ⟨hscalar, harray⟩ := mem_tables_of_primitive n hn
  match d with
  | 0 => exact Or.inl hscalar
  | 1 => exact Or.inl harray
  | _ + 2 => exact hn

/-- What stands in no table fits only by what it reaches. -/
lemma HasAccessor.listed_or_reaches (hf : h.HasAccessor n d) :
    (n ∈ scalars.map (·.1) ∨ n ∈ arrays.map (·.1)) ∨
      h.Reaches n parcelable ∨ h.Reaches n charSequence := by
  match d with
  | 0 => exact hf.imp Or.inl And.right
  | 1 => exact hf.imp_left Or.inr
  | _ + 2 => exact Or.inl (Or.inl (mem_tables_of_primitive n hf).1)

lemma isSome_specific?_typed_zero (hn : n ≠ "java.util.ArrayList") :
    (specific? (h.typed n 0)).isSome = true ↔ h.HasAccessor n 0 := by
  have hscalar := isSome_scalar?_iff (t := h.typed n 0) rfl
  rw [isSubtype_typed, isSubtype_typed] at hscalar
  exact hscalar.trans (or_congr_right (and_iff_right hn))

lemma isSome_specific?_typed_one :
    (specific? (h.typed n 1)).isSome = true ↔ h.HasAccessor n 1 := by
  have hno : (h.typed n 0).arguments = [] := rfl
  have harray := isSome_array?_iff (t := h.typed n 0)
  rwa [isSubtype_typed, isSubtype_typed, and_iff_right hno] at harray

/-- Some accessor keeps a class that is seen to be serializable or fits otherwise. -/
lemma exists_bundle_typed_iff : (∃ a, bundle (h.typed n d) = .ok a) ↔
    h.SeesSerializable n ∨ h.HasAccessor n d := by
  have hserializable : isSerializable (h.typed n d) = true ↔
      0 < d ∧ n ∈ primitives ∨ h.SeesSerializable n := serializableWith_typed d
  rw [exists_bundle_eq_ok_iff, hserializable, ← or_assoc, or_comm]
  by_cases hsees : h.SeesSerializable n
  · exact iff_of_true (Or.inl hsees) (Or.inl hsees)
  refine or_congr_right ?_
  match d with
  | 0 =>
    have hlist : n ≠ "java.util.ArrayList" := by
      rintro rfl
      exact hsees (Or.inl (by decide))
    rw [isSome_specific?_typed_zero hlist]
    exact or_iff_left fun hd => Nat.lt_irrefl 0 hd.1
  | 1 =>
    rw [isSome_specific?_typed_one]
    exact or_iff_left_of_imp fun hd => hasAccessor_of_primitive hd.2
  | k + 2 =>
    -- from here on there is only serialization
    have hnone : (specific? (h.typed n (k + 2))).isSome = false := rfl
    rw [hnone]
    exact ⟨fun hd => (hd.resolve_left Bool.false_ne_true).2,
      fun hn => Or.inr ⟨Nat.succ_pos _, hn⟩⟩

/-! ### Fields -/

lemma toElement_typed (hn : IsTypeName n.toList) {e : ManifestEntry}
    (he : e.type = n ++ brackets d) :
    e.toElement h.closed = .ok ⟨e.enclosing, e.name, h.typed n d, e.modifiers⟩ := by
  refine ManifestEntry.toElement_of_render (t := { named n with dimensions := d }) ?_ ?_
  · simpa [named, mentions, mentionsAll] using hn
  · rw [he, render_of_no_arguments rfl]
    rfl

lemma keeps_iff (hn : IsTypeName n.toList) :
    h.Keeps n d ↔ h.SeesSerializable n ∨ h.HasAccessor n d := by
  rw [← exists_bundle_typed_iff]
  constructor
  · intro hkeeps
    obtain ⟨x, a, hx, ha⟩ := hkeeps ⟨⟨"", ""⟩, "", n ++ brackets d, .empty⟩ rfl
    rw [toElement_typed hn rfl] at hx
    cases hx
    exact ⟨a, ha⟩
  · rintro ⟨a, ha⟩ e he
    exact ⟨_, a, toElement_typed hn he, ha⟩

lemma refuses_iff (hn : IsTypeName n.toList) :
    h.Refuses n d ↔ ¬(h.SeesSerializable n ∨ h.HasAccessor n d) := by
  rw [← exists_bundle_typed_iff, ← bundle_eq_error_iff, render_typed]
  constructor
  · intro hrefuses
    obtain ⟨x, hx, herror⟩ := hrefuses ⟨⟨"", ""⟩, "", n ++ brackets d, .empty⟩ rfl
    rw [toElement_typed hn rfl] at hx
    cases hx
    exact herror
  · intro herror e he
    exact ⟨_, toElement_typed hn he, herror⟩

lemma TellsSerializable.of_reaches (hc : h.Reaches n c) (ht : h.TellsSerializable c) :
    h.TellsSerializable n :=
  ht.imp hc.trans hc.trans

/-- **What is told of a class is inherited, what the table says of it is not.** A field of a class
is kept just if the class is seen to be serializable or fits otherwise, and refused in all other
cases; at every number of dimensions it is kept just if it is primitive or seen to be
serializable. For the latter it is enough that the hierarchy tells it of a class that is reached,
but not that the class which is reached stands in the table. -/
theorem kept_of_what_is_seen (h : Hierarchy) {n : String} (hn : IsTypeName n.toList) :
    (∀ d, h.Keeps n d ↔ h.SeesSerializable n ∨ h.HasAccessor n d) ∧
    (∀ d, h.Refuses n d ↔ ¬(h.SeesSerializable n ∨ h.HasAccessor n d)) ∧
    ((∀ d, h.Keeps n d) ↔ n ∈ primitives ∨ h.SeesSerializable n) ∧
    ∀ c, h.Reaches n c → h.TellsSerializable c → ∀ d, h.Keeps n d := by
  refine ⟨fun d => keeps_iff hn, fun d => refuses_iff hn, ?_, fun c hc ht d => ?_⟩
  · constructor
    · intro hkeeps
      exact ((keeps_iff hn).1 (hkeeps 2)).symm
    · rintro (hp | hsees) d
      · exact (keeps_iff hn).2 (Or.inr (hasAccessor_of_primitive hp))
      · exact (keeps_iff hn).2 (Or.inl hsees)
  · exact (keeps_iff hn).2 (Or.inl (Or.inr (ht.of_reaches hc)))

lemma Reaches.mem_of_closed {l : List String} (hn : n ∈ l) (hl : ∀ c ∈ l, h.parents c ⊆ l)
    (hc : h.Reaches n c) : c ∈ l := by
  induction hc with
  | refl => exact hn
  | tail _ hstep ih => exact hl _ ih hstep

/-- A class extends a date, which is serializable in any case. That does not help, unless the
hierarchy says of dates that they are serializable. -/
theorem kept_of_what_is_seen_subclass :
    let h := ofList [("a.Birthday", ["java.util.Date"])]
    let g := ofList [("a.Birthday", ["java.util.Date"]),
      ("java.util.Date", ["java.io.Serializable"])]
    IsTypeName "a.Birthday".toList ∧ h.Reaches "a.Birthday" "java.util.Date" ∧
      "java.util.Date" ∈ serializableClasses ∧ (∀ d, h.Refuses "a.Birthday" d) ∧
      ∀ d, g.Keeps "a.Birthday" d := by
  intro h g
  have hn : IsTypeName "a.Birthday".toList := isName_iff.1 (by decide +kernel)
  have hdate : h.Reaches "a.Birthday" "java.util.Date" := .single (by decide +kernel)
  have honly : ∀ x, h.Reaches "a.Birthday" x → x ∈ ["a.Birthday", "java.util.Date"] := fun x =>
    Hierarchy.Reaches.mem_of_closed (by decide) (by decide +kernel)
  refine ⟨hn, hdate, by decide, fun d => ((kept_of_what_is_seen h hn).2.1 d).2 ?_, ?_⟩
  · rintro ((hlisted | hpath | hpath) | haccessor)
    · exact absurd hlisted (by decide)
    · exact absurd (honly _ hpath) (by decide)
    · exact absurd (honly _ hpath) (by decide)
    · rcases haccessor.listed_or_reaches with (hlisted | hlisted) | hpath | hpath
      · exact absurd hlisted (by decide)
      · exact absurd hlisted (by decide)
      · exact absurd (honly _ hpath) (by decide)
      · exact absurd (honly _ hpath) (by decide)
  · exact (kept_of_what_is_seen g hn).2.2.2 "java.util.Date" (.single (by decide +kernel))
      (Or.inl (.single (by decide +kernel)))

end Hierarchy

end SavedState
