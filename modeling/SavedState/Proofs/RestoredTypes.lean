import Mathlib.Tactic.Common
import SavedState.Resolver

/-!
What the getters of a bundle give, beside the types of the fields that it is assigned to.

A getter with a declared result fits a field without a cast if its result is the type of the
field, written out. All accessors that are chosen without a cast fit, but for those of array lists
with entries of a common class: they are chosen by the erased name of the entries alone, so an
entry that has arguments or dimensions of its own is not what the getter gives.
-/

namespace SavedState

namespace FieldType

/-- Whether the type is no more than its name. -/
def IsNameOnly (t : FieldType) : Prop := t.arguments = [] ∧ t.dimensions = 0

variable {t : FieldType}

lemma render_eq (t : FieldType) :
    t.render = t.name ++ (renderArguments t.arguments ++ brackets t.dimensions) := by
  rw [← String.append_assoc]
  cases t
  rw [render]

lemma render_of_no_arguments (h : t.arguments = []) :
    t.render = t.name ++ brackets t.dimensions := by
  rw [render_eq, h, renderArguments, String.empty_append]

lemma render_of_one_argument {entry : FieldType} (h : t.arguments = [entry])
    (hd : t.dimensions = 0) : t.render = t.name ++ "<" ++ entry.render ++ ">" := by
  have hnone : brackets 0 = "" := rfl
  rw [render_eq, h, hd, hnone, renderArguments, renderMore, String.append_empty,
    String.append_empty, String.append_assoc, String.append_assoc, String.append_assoc]

/-- Arguments and dimensions show. -/
lemma render_eq_name_iff : t.render = t.name ↔ t.IsNameOnly := by
  have harguments : ∀ l, renderArguments l = "" ↔ l = [] := by
    rintro (_ | ⟨a, l⟩)
    · exact iff_of_true rfl rfl
    · simp [renderArguments]
  have hbrackets : ∀ n, brackets n = "" ↔ n = 0 := by
    rintro (_ | n)
    · exact iff_of_true rfl rfl
    · simp [brackets, String.join_cons, List.replicate_succ]
  rw [render_eq, String.append_eq_left_iff, String.append_eq_empty_iff, harguments, hbrackets]
  rfl

end FieldType

/-! ### Getters -/

/-- What the getter of an accessor is declared to give. Nothing is said where the getter is
generic in its result and takes the type of the field that it is assigned to. -/
def Accessor.result? : Accessor → Option String
  | boolean => some "boolean"
  | booleanArray => some "boolean[]"
  | byte => some "byte"
  | byteArray => some "byte[]"
  | char => some "char"
  | charArray => some "char[]"
  | short => some "short"
  | shortArray => some "short[]"
  | int => some "int"
  | intArray => some "int[]"
  | long => some "long"
  | longArray => some "long[]"
  | float => some "float"
  | floatArray => some "float[]"
  | double => some "double"
  | doubleArray => some "double[]"
  | string => some "java.lang.String"
  | stringArray => some "java.lang.String[]"
  | charSequence => some "java.lang.CharSequence"
  | charSequenceArray => some "java.lang.CharSequence[]"
  | bundle => some "android.os.Bundle"
  | parcelable => none
  | parcelableArray => some "android.os.Parcelable[]"
  | parcelableArrayList => none
  | sparseParcelableArray => none
  | integerArrayList => some "java.util.ArrayList<java.lang.Integer>"
  | stringArrayList => some "java.util.ArrayList<java.lang.String>"
  | charSequenceArrayList => some "java.util.ArrayList<java.lang.CharSequence>"
  | serializable => some "java.io.Serializable"

/-- What the getter gives can be assigned to a field of type `t` as it is. -/
def Accessor.Fits (a : Accessor) (t : FieldType) : Prop :=
  a.result? = none ∨ a.result? = some t.render

namespace Resolver

variable {table : List (String × Accessor)} {t : FieldType} {a : Accessor}

lemma mem_of_lookup {name : String} (h : table.lookup name = some a) : (name, a) ∈ table := by
  obtain ⟨l, m, rfl, -⟩ := List.lookup_eq_some_iff.1 h
  exact List.mem_append_right l List.mem_cons_self

lemma result?_of_mem_scalars : ∀ e ∈ scalars, e.2.result? = some e.1 := by decide

lemma result?_of_mem_arrays : ∀ e ∈ arrays, e.2.result? = some (e.1 ++ "[]") := by decide

lemma result?_of_mem_arrayLists :
    ∀ e ∈ arrayLists, e.2.result? = some ("java.util.ArrayList<" ++ e.1 ++ ">") := by decide

/-! ### How an accessor is chosen -/

/-- The ways for a type to get an accessor, whichever of them comes first. -/
inductive Kept (t : FieldType) : Accessor → Prop where
  | scalar (a : Accessor) (h : t.IsNameOnly) (ha : (t.name, a) ∈ scalars) : Kept t a
  | array (a : Accessor) (h : t.arguments = []) (hd : t.dimensions = 1)
      (ha : (t.name, a) ∈ arrays) : Kept t a
  | arrayList (a : Accessor) (entry : FieldType) (hn : t.name = "java.util.ArrayList")
      (h : t.arguments = [entry]) (hd : t.dimensions = 0) (ha : (entry.name, a) ∈ arrayLists) :
      Kept t a
  | parcelableArrayList (entry : FieldType) (hn : t.name = "java.util.ArrayList")
      (h : t.arguments = [entry]) (hd : t.dimensions = 0)
      (hp : entry.isSubtype parcelable = true) : Kept t .parcelableArrayList
  | sparseArray (entry : FieldType) (hn : t.name = "android.util.SparseArray")
      (h : t.arguments = [entry]) (hd : t.dimensions = 0)
      (hp : entry.isSubtype parcelable = true) : Kept t .sparseParcelableArray
  | parcelable (hp : t.isSubtype Resolver.parcelable = true) : Kept t .parcelable
  | charSequence (hc : t.isSubtype Resolver.charSequence = true) : Kept t .charSequence
  | parcelableArray (entry : FieldType) (h : t.component? = some entry)
      (hp : entry.isSubtype Resolver.parcelable = true) : Kept t .parcelableArray
  | charSequenceArray (entry : FieldType) (h : t.component? = some entry)
      (hc : entry.isSubtype Resolver.charSequence = true) : Kept t .charSequenceArray
  | serializable (h : isSerializable t = true) : Kept t .serializable

lemma of_plain? (h : plain? table t = some a) : t.arguments = [] ∧ (t.name, a) ∈ table := by
  unfold plain? at h
  split at h
  · rename_i hempty
    exact ⟨List.isEmpty_iff.1 hempty, mem_of_lookup h⟩
  · cases h

lemma kept_of_arrayList? (hn : t.name = "java.util.ArrayList") (hd : t.dimensions = 0)
    (h : arrayList? t.arguments = some a) : Kept t a := by
  unfold arrayList? at h
  split at h
  · rename_i entry harguments
    rcases Option.or_eq_some_iff.1 h with h | ⟨-, h⟩
    · exact .arrayList a entry hn harguments hd (mem_of_lookup h)
    · split at h
      · rename_i hp
        cases h
        exact .parcelableArrayList entry hn harguments hd hp
      · cases h
  · cases h

lemma kept_of_sparseArray? (hn : t.name = "android.util.SparseArray") (hd : t.dimensions = 0)
    (h : sparseArray? t.arguments = some a) : Kept t a := by
  unfold sparseArray? at h
  split at h
  · rename_i entry harguments
    split at h
    · rename_i hp
      cases h
      exact .sparseArray entry hn harguments hd hp
    · cases h
  · cases h

lemma kept_of_scalar? (hd : t.dimensions = 0) (h : scalar? t = some a) : Kept t a := by
  rcases Option.or_eq_some_iff.1 h with h | ⟨-, h⟩
  · obtain ⟨harguments, ha⟩ := of_plain? h
    exact .scalar a ⟨harguments, hd⟩ ha
  · split at h
    · rename_i hn
      exact kept_of_arrayList? hn hd h
    · split at h
      · rename_i hn
        exact kept_of_sparseArray? hn hd h
      · split at h
        · rename_i hp
          cases h
          exact .parcelable hp
        · split at h
          · rename_i hc
            cases h
            exact .charSequence hc
          · cases h

lemma kept_of_array? {entry : FieldType} (hentry : t.component? = some entry)
    (hd : entry.dimensions = 0) (h : array? entry = some a) : Kept t a := by
  have ht : entry = { t with dimensions := 0 } ∧ t.dimensions = 1 := by
    unfold FieldType.component? at hentry
    split at hentry
    · cases hentry
    · rename_i n hn
      cases hentry
      cases hd
      exact ⟨rfl, hn⟩
  rcases Option.or_eq_some_iff.1 h with h | ⟨-, h⟩
  · obtain ⟨harguments, ha⟩ := of_plain? h
    rw [ht.1] at harguments ha
    exact .array a harguments ht.2 ha
  · split at h
    · rename_i hp
      cases h
      exact .parcelableArray entry hentry hp
    · split at h
      · rename_i hc
        cases h
        exact .charSequenceArray entry hentry hc
      · cases h

lemma kept_of_specific? (h : specific? t = some a) : Kept t a := by
  unfold specific? at h
  split at h
  · rename_i hnone
    refine kept_of_scalar? ?_ h
    unfold FieldType.component? at hnone
    split at hnone
    · assumption
    · cases hnone
  · rename_i entry hentry
    split at h
    · cases h
    · rename_i harray
      exact kept_of_array? hentry (by simpa [FieldType.isArray] using harray) h

lemma kept_of_bundle (h : bundle t = .ok a) : Kept t a := by
  unfold bundle at h
  split at h
  · rename_i b hb
    cases h
    rcases Option.or_eq_some_iff.1 hb with hb | ⟨-, hb⟩
    · exact kept_of_specific? hb
    · split at hb
      · rename_i hs
        cases hb
        exact .serializable hs
      · cases hb
  · cases h

/-! ### Without a cast -/

lemma fits_of_text {text : String} (ha : a.result? = some text) (ht : t.render = text) :
    a.Fits t := by
  rw [← ht] at ha
  exact Or.inr ha

/-- The getter of an array list of a common class fits just if the entries are of that class and
no more. -/
lemma fits_arrayList_iff {entry : FieldType} (hn : t.name = "java.util.ArrayList")
    (h : t.arguments = [entry]) (hd : t.dimensions = 0) (ha : (entry.name, a) ∈ arrayLists) :
    a.Fits t ↔ entry.IsNameOnly := by
  have ht : t.render = "java.util.ArrayList<" ++ entry.render ++ ">" := by
    rw [FieldType.render_of_one_argument h hd, hn]
    rfl
  have hresult := result?_of_mem_arrayLists _ ha
  unfold Accessor.Fits
  rw [hresult, ht, ← FieldType.render_eq_name_iff]
  constructor
  · rintro (h | h)
    · cases h
    · have h := Option.some.inj h
      exact ((String.append_right_inj _).1 ((String.append_left_inj _).1 h)).symm
  · intro h
    rw [h]
    exact Or.inr rfl

/-- **Whether a getter fits where nothing is cast.** It does, but for array lists that are kept
by the name of their entries' class while the entries have arguments or dimensions. -/
theorem uncast_fits_iff (h : bundle t = .ok a) (hc : a.castsFor t = false) :
    a.Fits t ↔ (a ∈ arrayLists.map (·.2) → ∀ entry ∈ t.arguments, entry.IsNameOnly) := by
  cases kept_of_bundle h with
  | scalar _ hnameOnly ha =>
    have htext : t.render = t.name := FieldType.render_eq_name_iff.2 hnameOnly
    refine iff_of_true (fits_of_text (result?_of_mem_scalars _ ha) htext) fun _ entry hentry => ?_
    rw [hnameOnly.1] at hentry
    exact absurd hentry List.not_mem_nil
  | array _ hno hd ha =>
    have htext : t.render = t.name ++ "[]" := by
      rw [FieldType.render_of_no_arguments hno, hd]
      rfl
    refine iff_of_true (fits_of_text (result?_of_mem_arrays _ ha) htext) fun _ entry hentry => ?_
    rw [hno] at hentry
    exact absurd hentry List.not_mem_nil
  | arrayList _ entry hn hone hd ha =>
    rw [fits_arrayList_iff hn hone hd ha, hone]
    have hmem : a ∈ arrayLists.map (·.2) := List.mem_map_of_mem ha
    simp [hmem]
  | parcelable _ => exact iff_of_true (Or.inl rfl) fun hmem => absurd hmem (by decide)
  | parcelableArrayList _ _ _ _ _ =>
    exact iff_of_true (Or.inl rfl) fun hmem => absurd hmem (by decide)
  | sparseArray _ _ _ _ _ => exact iff_of_true (Or.inl rfl) fun hmem => absurd hmem (by decide)
  | charSequence _ =>
    have htext : t.render = "java.lang.CharSequence" := by simpa [Accessor.castsFor] using hc
    exact iff_of_true (fits_of_text rfl htext) fun hmem => absurd hmem (by decide)
  | charSequenceArray _ _ _ =>
    have htext : t.render = "java.lang.CharSequence[]" := by simpa [Accessor.castsFor] using hc
    exact iff_of_true (fits_of_text rfl htext) fun hmem => absurd hmem (by decide)
  | parcelableArray _ _ _ => cases hc
  | serializable _ => cases hc

/-- The entries of the one list are strings, and those of the other are arrays of strings. Both
lists are restored with the same getter and without a cast. -/
theorem uncast_fits_iff_arrays_of_strings :
    let list (entry : FieldType) : FieldType := ⟨"java.util.ArrayList", [entry], 0, .empty⟩
    let strings := list (.named "java.lang.String")
    let arrays := list { FieldType.named "java.lang.String" with dimensions := 1 }
    (bundle strings = .ok .stringArrayList ∧ Accessor.stringArrayList.castsFor strings = false ∧
        Accessor.stringArrayList.Fits strings) ∧
      bundle arrays = .ok .stringArrayList ∧ Accessor.stringArrayList.castsFor arrays = false ∧
        ¬Accessor.stringArrayList.Fits arrays := by
  intro list strings arrays
  have hs : bundle strings = .ok .stringArrayList := by decide +kernel
  have ha : bundle arrays = .ok .stringArrayList := by decide +kernel
  have hnameOnly : ∀ entry ∈ strings.arguments, entry.IsNameOnly :=
    List.forall_mem_singleton.2 ⟨rfl, rfl⟩
  refine ⟨⟨hs, rfl, (uncast_fits_iff hs rfl).2 fun _ => hnameOnly⟩, ha, rfl, fun hfits => ?_⟩
  have hentry := (uncast_fits_iff ha rfl).1 hfits (by decide) _ (List.mem_singleton_self _)
  cases hentry.2

end Resolver

end SavedState
