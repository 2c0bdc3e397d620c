import SavedState.Proofs.Inheritance
import SavedState.Proofs.RestoredTypes

/-!
The accessor of a class of one's own, by what the class reaches in the hierarchy of its manifest.

No table tells how to keep such a class. It is kept as parcelable if it reaches that, else as a
sequence of characters if it reaches that, and else it is serialized if it is known how. Arrays
go by the class of their entries; an array list and a sparse array only ask whether their entries
are parcelable.
-/

namespace SavedState

variable {h : Hierarchy} {n x : String}

/-- The type of a name, with what a closed hierarchy tells, is a subtype of what it reaches. -/
lemma FieldType.isSubtype_inherit_named :
    ((FieldType.named n).inherit h.closed.parents).isSubtype x = true ↔ h.Reaches n x := by
  have hmem : ((FieldType.named n).inherit h.closed.parents).isSubtype x = true ↔
      n = x ∨ x ∈ h.closed.parents n := by
    simp [FieldType.named, FieldType.inherit, FieldType.isSubtype, FieldType.isArray]
  rw [hmem, Hierarchy.mem_parents_closed]
  constructor
  · rintro (rfl | ⟨-, hx⟩)
    · exact .refl
    · exact hx
  · intro hx
    -- no class is among its own ancestors, so its name is compared on its own
    by_cases he : n = x
    · exact Or.inl he
    · exact Or.inr ⟨Ne.symm he, hx⟩

lemma FieldType.isSubtype_inherit_named_eq :
    (fun x => ((FieldType.named n).inherit h.closed.parents).isSubtype x = true) = h.Reaches n :=
  funext fun _ => propext isSubtype_inherit_named

namespace Resolver

/-- A name of which no table tells how it is kept. -/
structure Unlisted (n : String) : Prop where
  isTypeName : FieldType.IsTypeName n.toList
  not_in_tables : n ∉ (scalars ++ arrays ++ arrayLists).map (·.1)
  ne_arrayList : n ≠ "java.util.ArrayList"
  ne_sparseArray : n ≠ "android.util.SparseArray"

/-- An answer that goes by what is reached: first by whether that is parcelable, then by whether
it is a sequence of characters, then by whether it is serializable. -/
structure Ranked (reaches : String → Prop) (first second : Accessor)
    (answer : Except Unsupported Accessor) : Prop where
  first_iff : answer = .ok first ↔ reaches parcelable
  second_iff : answer = .ok second ↔ ¬reaches parcelable ∧ reaches charSequence
  serializable : ¬reaches parcelable → ¬reaches charSequence →
    reaches "java.io.Serializable" ∨ reaches "java.lang.Enum" → answer = .ok .serializable
  only : ∀ a, answer = .ok a → a = first ∨ a = second ∨ a = .serializable

/-- What is answered for a type that is written with the name `n`. -/
structure ByReach (reaches : String → Prop) (n text : String)
    (answer : Except Unsupported Accessor) : Prop where
  scalar : text = n → Ranked reaches .parcelable .charSequence answer
  array : text = n ++ "[]" → Ranked reaches .parcelableArray .charSequenceArray answer
  arrayList : text = "java.util.ArrayList<" ++ n ++ ">" →
    (answer = .ok .parcelableArrayList ↔ reaches parcelable) ∧
      (¬reaches parcelable → answer = .ok .serializable)
  sparseArray : text = "android.util.SparseArray<" ++ n ++ ">" →
    (answer = .ok .sparseParcelableArray ↔ reaches parcelable)

variable {t entry : FieldType} {first second : Accessor}

/-! ### The resolver on unlisted names -/

lemma Unlisted.lookup_eq_none (hn : Unlisted n) :
    scalars.lookup n = none ∧ arrays.lookup n = none ∧ arrayLists.lookup n = none := by
  have hnone : ∀ table ⊆ scalars ++ arrays ++ arrayLists, table.lookup n = none :=
    fun table hsub => List.lookup_eq_none_iff.2 fun e he => bne_iff_ne.2 fun heq =>
      hn.not_in_tables (heq ▸ List.mem_map_of_mem (hsub he))
  refine ⟨hnone _ fun e he => ?_, hnone _ fun e he => ?_, hnone _ fun e he => ?_⟩ <;> simp [he]

lemma specific?_of_scalar (hn : Unlisted t.name) (hd : t.dimensions = 0) :
    specific? t = if t.isSubtype parcelable then some .parcelable
      else if t.isSubtype charSequence then some .charSequence else none := by
  have hplain : plain? scalars t = none := by simp [plain?, hn.lookup_eq_none.1]
  simp [specific?, FieldType.component?, hd, scalar?, hplain, hn.ne_arrayList, hn.ne_sparseArray]

lemma specific?_of_array (hn : Unlisted t.name) (hd : t.dimensions = 0) :
    specific? { t with dimensions := 1 } = if t.isSubtype parcelable then some .parcelableArray
      else if t.isSubtype charSequence then some .charSequenceArray else none := by
  have hentry : ({ t with dimensions := 0 } : FieldType) = t := by
    cases t
    cases hd
    rfl
  have hplain : plain? arrays t = none := by simp [plain?, hn.lookup_eq_none.2.1]
  have harray : t.isArray = false := by simp [FieldType.isArray, hd]
  simp [specific?, FieldType.component?, hentry, harray, array?, hplain]

lemma specific?_of_arrayList (hn : Unlisted entry.name) (hname : t.name = "java.util.ArrayList")
    (harguments : t.arguments = [entry]) (hd : t.dimensions = 0) :
    specific? t = if entry.isSubtype parcelable then some .parcelableArrayList else none := by
  have hplain : plain? scalars t = none := by simp [plain?, harguments]
  simp [specific?, FieldType.component?, hd, scalar?, hplain, hname, harguments, arrayList?,
    hn.lookup_eq_none.2.2]

lemma specific?_of_sparseArray (hname : t.name = "android.util.SparseArray")
    (harguments : t.arguments = [entry]) (hd : t.dimensions = 0) :
    specific? t = if entry.isSubtype parcelable then some .sparseParcelableArray else none := by
  have hplain : plain? scalars t = none := by simp [plain?, harguments]
  simp [specific?, FieldType.component?, hd, scalar?, hplain, hname, harguments, sparseArray?]

lemma serializableWith_of_zero (hzero : serializableWith t 0 = true) :
    ∀ d, serializableWith t d = true
  | 0 => hzero
  | d + 1 => by
    rw [serializableWith, serializableWith_of_zero hzero d, Bool.or_true]

/-! ### Answers -/

lemma bundle_eq_ok_iff {a : Accessor} : bundle t = .ok a ↔
    specific? t = some a ∨ specific? t = none ∧ isSerializable t = true ∧ a = .serializable := by
  unfold bundle accessor?
  cases specific? t with
  | some b => simp
  | none =>
    by_cases hs : isSerializable t = true
    · simp [hs, eq_comm]
    · simp [hs]

/-- An array or a scalar is ranked by the type without the dimensions. -/
lemma ranked_of_specific? (hne : first ≠ second) (hfirst : first ≠ .serializable)
    (hsecond : second ≠ .serializable) (hentry : entry = { t with dimensions := 0 })
    (hspecific : specific? t = if entry.isSubtype parcelable then some first
      else if entry.isSubtype charSequence then some second else none) :
    Ranked (fun x => entry.isSubtype x = true) first second (bundle t) := by
  constructor
  · rw [bundle_eq_ok_iff, hspecific]
    grind
  · rw [bundle_eq_ok_iff, hspecific]
    grind
  · intro hp hc hs
    have hserializable : isSerializable t = true := by
      refine serializableWith_of_zero ?_ t.dimensions
      rw [serializableWith, ← hentry]
      rcases hs with hs | hs <;> simp [hs]
    rw [bundle_eq_ok_iff, hspecific, if_neg hp, if_neg hc]
    exact Or.inr ⟨rfl, hserializable, rfl⟩
  · intro a ha
    rw [bundle_eq_ok_iff, hspecific] at ha
    grind

lemma arrayList_answer (hn : Unlisted entry.name) (hname : t.name = "java.util.ArrayList")
    (harguments : t.arguments = [entry]) (hd : t.dimensions = 0) :
    (bundle t = .ok .parcelableArrayList ↔ entry.isSubtype parcelable = true) ∧
      (¬entry.isSubtype parcelable = true → bundle t = .ok .serializable) := by
  have hserializable : isSerializable t = true := by
    refine serializableWith_of_zero ?_ t.dimensions
    simp [serializableWith, hname, serializableClasses]
  simp only [bundle_eq_ok_iff, specific?_of_arrayList hn hname harguments hd]
  grind

lemma sparseArray_answer (hname : t.name = "android.util.SparseArray")
    (harguments : t.arguments = [entry]) (hd : t.dimensions = 0) :
    bundle t = .ok .sparseParcelableArray ↔ entry.isSubtype parcelable = true := by
  rw [bundle_eq_ok_iff, specific?_of_sparseArray hname harguments hd]
  grind

end Resolver

/-! ### Entries of manifests -/

open Resolver

/-- An entry with the text of a type is of that type. -/
lemma ManifestEntry.toElement_of_render {closed : Hierarchy} {e : ManifestEntry} {t : FieldType}
    (hn : ∀ n ∈ t.mentions, FieldType.IsTypeName n.toList) (he : e.type = t.render) :
    e.toElement closed = .ok ⟨e.enclosing, e.name, t.bare.inherit closed.parents, e.modifiers⟩ :=
  toElement_eq_ok_iff.2 ⟨t.bare, he ▸ FieldType.read_render hn, rfl⟩

/-- The texts of the types that are written with the name `n`. -/
def Resolver.textsWith (n : String) : List String :=
  [n, n ++ "[]", "java.util.ArrayList<" ++ n ++ ">", "android.util.SparseArray<" ++ n ++ ">"]

lemma FieldType.render_named : (FieldType.named n).render = n := by
  rw [render_of_no_arguments rfl]
  exact String.append_empty

namespace Resolver.Unlisted

open FieldType

variable {e : ManifestEntry} (hn : Unlisted n)

include hn

lemma isTypeName_of_mem_mentions : ∀ m ∈ (named n).mentions, IsTypeName m.toList := by
  simpa [named, mentions, mentionsAll] using hn.isTypeName

lemma toElement_scalar (he : e.type = n) : e.toElement h.closed =
    .ok ⟨e.enclosing, e.name, (named n).inherit h.closed.parents, e.modifiers⟩ :=
  ManifestEntry.toElement_of_render (t := named n) hn.isTypeName_of_mem_mentions
    (he.trans render_named.symm)

lemma toElement_array (he : e.type = n ++ "[]") : e.toElement h.closed =
    .ok ⟨e.enclosing, e.name, { (named n).inherit h.closed.parents with dimensions := 1 },
      e.modifiers⟩ := by
  refine ManifestEntry.toElement_of_render (t := { named n with dimensions := 1 })
    hn.isTypeName_of_mem_mentions ?_
  rw [he, render_of_no_arguments rfl]
  rfl

lemma toElement_collection (name : String) (hname : isName name.toList = true)
    (he : e.type = name ++ "<" ++ n ++ ">") : e.toElement h.closed =
      .ok ⟨e.enclosing, e.name, ⟨name, [(named n).inherit h.closed.parents], 0,
        NameSet.empty.insertAll (h.closed.parents name)⟩, e.modifiers⟩ := by
  refine ManifestEntry.toElement_of_render (t := ⟨name, [named n], 0, .empty⟩) ?_ ?_
  · simpa [mentions, mentionsAll, named] using And.intro (isName_iff.1 hname) hn.isTypeName
  · rw [he, render_of_one_argument rfl rfl, render_named]

lemma toElement_arrayList (he : e.type = "java.util.ArrayList<" ++ n ++ ">") :
    e.toElement h.closed = .ok ⟨e.enclosing, e.name,
      ⟨"java.util.ArrayList", [(named n).inherit h.closed.parents], 0,
        NameSet.empty.insertAll (h.closed.parents "java.util.ArrayList")⟩, e.modifiers⟩ :=
  hn.toElement_collection "java.util.ArrayList" (by decide +kernel) he

lemma toElement_sparseArray (he : e.type = "android.util.SparseArray<" ++ n ++ ">") :
    e.toElement h.closed = .ok ⟨e.enclosing, e.name,
      ⟨"android.util.SparseArray", [(named n).inherit h.closed.parents], 0,
        NameSet.empty.insertAll (h.closed.parents "android.util.SparseArray")⟩, e.modifiers⟩ :=
  hn.toElement_collection "android.util.SparseArray" (by decide +kernel) he

lemma exists_element (he : e.type ∈ textsWith n) : ∃ x, e.toElement h.closed = .ok x := by
  rcases (by simpa [textsWith] using he : _ ∨ _ ∨ _ ∨ _) with he | he | he | he
  · exact ⟨_, hn.toElement_scalar he⟩
  · exact ⟨_, hn.toElement_array he⟩
  · exact ⟨_, hn.toElement_arrayList he⟩
  · exact ⟨_, hn.toElement_sparseArray he⟩

/-- **An entry is answered for by what its class reaches.** -/
lemma byReach {x : Element} (hx : e.toElement h.closed = .ok x) :
    ByReach (h.Reaches n) n e.type (bundle x.type) where
  scalar he := by
    rw [hn.toElement_scalar he] at hx
    cases hx
    rw [← isSubtype_inherit_named_eq]
    exact ranked_of_specific? (by decide) (by decide) (by decide) rfl (specific?_of_scalar hn rfl)
  array he := by
    rw [hn.toElement_array he] at hx
    cases hx
    rw [← isSubtype_inherit_named_eq]
    exact ranked_of_specific? (by decide) (by decide) (by decide) rfl (specific?_of_array hn rfl)
  arrayList he := by
    rw [hn.toElement_arrayList he] at hx
    cases hx
    rw [← isSubtype_inherit_named]
    exact arrayList_answer hn rfl rfl rfl
  sparseArray he := by
    rw [hn.toElement_sparseArray he] at hx
    cases hx
    rw [← isSubtype_inherit_named]
    exact sparseArray_answer rfl rfl rfl

end Resolver.Unlisted

/-- **What a class reaches decides how its fields are kept.** In the round that comes of a
manifest, whatever its hierarchy, the fields of an unlisted class, of arrays of it and of lists
and sparse arrays of it are kept by what the class reaches. Such an entry always comes to be an
element. -/
theorem Manifest.kept_by_reach (m : Manifest) (hn : Unlisted n) :
    (∀ e : ManifestEntry, e.type ∈ textsWith n →
      ∃ x, e.toElement m.hierarchy.closed = .ok x) ∧
    ∀ isFinal round, m.toRound isFinal = .ok round →
      List.Forall₂ (fun e x => ByReach (m.hierarchy.Reaches n) n e.type (bundle x.type))
        m.entries round.elements :=
  ⟨fun _ he => hn.exists_element he, fun _ _ hround =>
    (toRound_eq_ok_iff.1 hround).2.imp fun _ _ hx => hn.byReach hx⟩

/-- Two classes extend each other, and what one of them is known to be, the other is as well. -/
theorem Manifest.kept_by_reach_in_cycle :
    let entry (text : String) : ManifestEntry := ⟨⟨"a", "Foo"⟩, "x", text, .empty⟩
    let m : Manifest := ⟨.ofList [("a.User", ["a.Base"]),
      ("a.Base", ["a.User", "android.os.Parcelable"])], (textsWith "a.User").map entry⟩
    Unlisted "a.User" ∧ m.hierarchy.Reaches "a.User" parcelable ∧
      ∃ round, m.toRound true = .ok round ∧
        round.elements.map (fun x => bundle x.type) =
          [.ok .parcelable, .ok .parcelableArray, .ok .parcelableArrayList,
            .ok .sparseParcelableArray] := by
  intro entry m
  have hn : Unlisted "a.User" :=
    ⟨FieldType.isName_iff.1 (by decide +kernel), by decide, by decide, by decide⟩
  have hreach : m.hierarchy.Reaches "a.User" parcelable :=
    .head (b := "a.Base") (by decide +kernel) (.single (by decide +kernel))
  obtain ⟨hsome, hkept⟩ := kept_by_reach m hn
  obtain ⟨x, hx⟩ := hsome (entry _) (.head _)
  obtain ⟨y, hy⟩ := hsome (entry _) (.tail _ (.head _))
  obtain ⟨z, hz⟩ := hsome (entry _) (.tail _ (.tail _ (.head _)))
  obtain ⟨w, hw⟩ := hsome (entry _) (.tail _ (.tail _ (.tail _ (.head _))))
  have hround : m.toRound true = .ok ⟨[x, y, z, w], true⟩ :=
    toRound_eq_ok_iff.2 ⟨rfl, .cons hx (.cons hy (.cons hz (.cons hw .nil)))⟩
  refine ⟨hn, hreach, _, hround, ?_⟩
  rcases hkept true _ hround with - | ⟨hx, - | ⟨hy, - | ⟨hz, - | ⟨hw, -⟩⟩⟩⟩
  rw [List.map_cons, List.map_cons, List.map_cons, List.map_cons, List.map_nil,
    (hx.scalar rfl).first_iff.2 hreach, (hy.array rfl).first_iff.2 hreach,
    (hz.arrayList rfl).1.2 hreach, (hw.sparseArray rfl).2 hreach]

end SavedState
