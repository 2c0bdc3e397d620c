import SavedState.Proofs.RestoredTypes
import SavedState.Proofs.TransitiveClosure

/-!
What more knowledge of supertypes does to the choice of an accessor.

Accessors are ranked by how close they are to the type of the field. Each question that the
resolver asks of a class is whether some class is among its supertypes, and the answers that it
tries first are the higher ones. So where more supertypes are known, the accessor stays as it is
or gets a higher rank.
-/

namespace SavedState

/-- Accessors that fit one type only come before those for parcelable values, then come those for
sequences of characters, and last what is serialized. -/
def Accessor.rank : Accessor → Nat
  | serializable => 1
  | charSequence | charSequenceArray => 2
  | parcelable | parcelableArray | parcelableArrayList | sparseParcelableArray => 3
  | _ => 4

namespace FieldType

mutual

/-- Whether two types are one, where of no class in it the first knows a supertype that the second
does not know. -/
inductive Below : FieldType → FieldType → Prop where
  | node {name : String} {as bs : List FieldType} {dimensions : Nat} {s t : NameSet}
      (arguments : BelowAll as bs) (supertypes : ∀ x ∈ s, x ∈ t) :
      Below ⟨name, as, dimensions, s⟩ ⟨name, bs, dimensions, t⟩

inductive BelowAll : List FieldType → List FieldType → Prop where
  | nil : BelowAll [] []
  | cons {a b : FieldType} {as bs : List FieldType} (head : Below a b) (tail : BelowAll as bs) :
      BelowAll (a :: as) (b :: bs)

end

variable {s t : FieldType} {as bs : List FieldType} {parents other : String → List String}

mutual

/-- A type inherits no less from a hierarchy that tells no less. -/
lemma inherit_below (h : ∀ n, parents n ⊆ other n) : ∀ t : FieldType,
    Below (t.inherit parents) (t.inherit other)
  | ⟨name, arguments, dimensions, supertypes⟩ => by
    rw [inherit, inherit]
    refine .node (inheritAll_belowAll h arguments) fun x hx => ?_
    rw [NameSet.mem_insertAll] at hx ⊢
    exact hx.imp_left fun hx => h name hx

lemma inheritAll_belowAll (h : ∀ n, parents n ⊆ other n) : ∀ l : List FieldType,
    BelowAll (inheritAll parents l) (inheritAll other l)
  | [] => .nil
  | a :: as => .cons (inherit_below h a) (inheritAll_belowAll h as)

end

lemma BelowAll.isEmpty_eq (h : BelowAll as bs) : as.isEmpty = bs.isEmpty := by
  cases h <;> rfl

namespace Below

lemma name_eq (h : Below s t) : s.name = t.name := by
  cases h
  rfl

lemma dimensions_eq (h : Below s t) : s.dimensions = t.dimensions := by
  cases h
  rfl

lemma arguments (h : Below s t) : BelowAll s.arguments t.arguments := by
  cases h with
  | node arguments _ => exact arguments

lemma withDimensions (h : Below s t) (n : Nat) :
    Below { s with dimensions := n } { t with dimensions := n } := by
  cases h with
  | node arguments supertypes => exact .node arguments supertypes

lemma isSubtype (h : Below s t) {x : String} (hx : s.isSubtype x = true) :
    t.isSubtype x = true := by
  cases h with
  | node _ supertypes =>
    simp only [FieldType.isSubtype, isArray, Bool.and_eq_true, Bool.or_eq_true,
      NameSet.contains_iff] at hx ⊢
    exact ⟨hx.1, hx.2.imp_right (supertypes x)⟩

end Below

end FieldType

namespace Resolver

open FieldType

def rank : Except Unsupported Accessor → Nat
  | .error _ => 0
  | .ok a => a.rank

/-! ### Better answers -/

/-- The rank of an accessor that may be missing. -/
def grade : Option Accessor → Nat
  | none => 0
  | some a => a.rank

/-- Whether `y` is the answer `x` itself or one of a higher rank. -/
def NoWorse (x y : Option Accessor) : Prop := x = y ∨ grade x < grade y

variable {x y v w : Option Accessor} {a : Accessor} {p q : Prop} [Decidable p] [Decidable q]

namespace NoWorse

lemma refl (x : Option Accessor) : NoWorse x x := .inl rfl

/-- What is tried second comes into its own only where the first try gives nothing. -/
lemma or (hxy : NoWorse x y) (hvw : NoWorse v w) (hv : ∀ b, y = some b → grade v < b.rank) :
    NoWorse (x.or v) (y.or w) := by
  cases x with
  | some a =>
    cases y with
    | some b => exact hxy
    | none => exact absurd hxy (by simp [NoWorse, grade])
  | none =>
    cases y with
    | some b => exact .inr (hv b rfl)
    | none => exact hvw

lemma or_left (x : Option Accessor) (hvw : NoWorse v w) : NoWorse (x.or v) (x.or w) := by
  cases x with
  | some a => exact refl _
  | none => exact hvw

/-- A question that is answered with yes more often leads to a better answer than a no. -/
lemma ite (hpq : p → q) (hxy : NoWorse x y) (hx : grade x < a.rank) :
    NoWorse (if p then some a else x) (if q then some a else y) := by
  by_cases hp : p
  · rw [if_pos hp, if_pos (hpq hp)]
    exact refl _
  · rw [if_neg hp]
    by_cases hq : q
    · rw [if_pos hq]
      exact .inr hx
    · rw [if_neg hq]
      exact hxy

end NoWorse

/-! ### What the resolver asks -/

variable {s t : FieldType} {as bs : List FieldType} {table : List (String × Accessor)}

lemma plain?_eq (h : Below s t) : plain? table s = plain? table t := by
  rw [plain?, plain?, h.arguments.isEmpty_eq, h.name_eq]

lemma arrayList?_noWorse (h : BelowAll as bs) : NoWorse (arrayList? as) (arrayList? bs) := by
  cases h with
  | nil => exact .refl _
  | cons head tail =>
    cases tail with
    | nil =>
      rw [arrayList?, arrayList?, head.name_eq]
      apply NoWorse.or_left
      exact .ite head.isSubtype (.refl none) (by decide)
    | cons _ _ => exact .refl none

lemma sparseArray?_noWorse (h : BelowAll as bs) : NoWorse (sparseArray? as) (sparseArray? bs) := by
  cases h with
  | nil => exact .refl _
  | cons head tail =>
    cases tail with
    | nil => exact .ite head.isSubtype (.refl none) (by decide)
    | cons _ _ => exact .refl none

/-- The answer of the two interfaces that are asked for last, if their accessors are in order. -/
lemma interfaces_noWorse (h : Below s t) {first second : Accessor}
    (hrank : second.rank < first.rank) (hpos : 0 < second.rank) :
    NoWorse
      (if s.isSubtype parcelable then some first
        else if s.isSubtype charSequence then some second else none)
      (if t.isSubtype parcelable then some first
        else if t.isSubtype charSequence then some second else none) := by
  have hsecond : NoWorse (if s.isSubtype charSequence then some second else none)
      (if t.isSubtype charSequence then some second else none) :=
    .ite h.isSubtype (.refl none) hpos
  apply NoWorse.ite h.isSubtype hsecond
  split
  · exact hrank
  · exact hpos.trans hrank

lemma scalar?_noWorse (h : Below s t) : NoWorse (scalar? s) (scalar? t) := by
  rw [scalar?, scalar?, plain?_eq h, h.name_eq]
  apply NoWorse.or_left
  by_cases hlist : t.name = "java.util.ArrayList"
  · rw [if_pos hlist, if_pos hlist]
    exact arrayList?_noWorse h.arguments
  · rw [if_neg hlist, if_neg hlist]
    by_cases hsparse : t.name = "android.util.SparseArray"
    · rw [if_pos hsparse, if_pos hsparse]
      exact sparseArray?_noWorse h.arguments
    · rw [if_neg hsparse, if_neg hsparse]
      exact interfaces_noWorse h (by decide) (by decide)

lemma array?_noWorse (h : Below s t) : NoWorse (array? s) (array? t) := by
  rw [array?, array?, plain?_eq h]
  apply NoWorse.or_left
  exact interfaces_noWorse h (by decide) (by decide)

lemma specific?_noWorse (h : Below s t) : NoWorse (specific? s) (specific? t) := by
  rw [specific?, specific?, component?, component?, h.dimensions_eq]
  cases t.dimensions with
  | zero => exact scalar?_noWorse h
  | succ n =>
    cases n with
    | zero => exact array?_noWorse (h.withDimensions 0)
    | succ n => exact .refl none

/-- What is serializable stays so. -/
lemma serializableWith_of_below (h : Below s t) (n : Nat) (hs : serializableWith s n = true) :
    serializableWith t n = true := by
  induction n with
  | zero =>
    have hzero := h.withDimensions 0
    simp only [serializableWith, Bool.or_eq_true] at hs ⊢
    exact hs.imp (Or.imp (fun hlisted => h.name_eq ▸ hlisted) hzero.isSubtype) hzero.isSubtype
  | succ n ih =>
    simp only [serializableWith, Bool.or_eq_true] at hs ⊢
    rw [← h.name_eq]
    exact hs.imp_right ih

/-! ### Before serialization -/

/-- Whether an answer, if there is one, ranks above serialization. -/
def Above (x : Option Accessor) : Prop := ∀ b, x = some b → 1 < b.rank

namespace Above

lemma nothing : Above none := nofun

lemma or (hx : Above x) (hy : Above y) : Above (x.or y) := by
  intro b hb
  rcases Option.or_eq_some_iff.1 hb with hb | ⟨-, hb⟩
  · exact hx b hb
  · exact hy b hb

lemma ite (ha : 1 < a.rank) (hx : Above x) : Above (if p then some a else x) := by
  intro b hb
  split at hb
  · cases hb
    exact ha
  · exact hx b hb

lemma lookup (htable : table ∈ [scalars, arrays, arrayLists]) (n : String) :
    Above (table.lookup n) := by
  have hall : ∀ table ∈ [scalars, arrays, arrayLists], ∀ e ∈ table, 1 < e.2.rank := by decide
  intro b hb
  exact hall table htable (n, b) (mem_of_lookup hb)

lemma plain? (htable : table ∈ [scalars, arrays, arrayLists]) (t : FieldType) :
    Above (plain? table t) := by
  unfold Resolver.plain?
  split
  · exact lookup htable t.name
  · exact nothing

lemma arrayList? (as : List FieldType) : Above (arrayList? as) := by
  unfold Resolver.arrayList?
  split
  · exact (lookup (by simp) _).or (.ite (by decide) nothing)
  · exact nothing

lemma sparseArray? (as : List FieldType) : Above (sparseArray? as) := by
  unfold Resolver.sparseArray?
  split
  · exact .ite (by decide) nothing
  · exact nothing

lemma scalar? (t : FieldType) : Above (scalar? t) := by
  refine (plain? (by simp) t).or ?_
  split
  · exact arrayList? t.arguments
  · split
    · exact sparseArray? t.arguments
    · exact .ite (by decide) (.ite (by decide) nothing)

lemma array? (t : FieldType) : Above (array? t) :=
  (plain? (by simp) t).or (.ite (by decide) (.ite (by decide) nothing))

/-- All accessors that are tried before serialization rank above it. -/
lemma specific? (t : FieldType) : Above (specific? t) := by
  unfold Resolver.specific?
  split
  · exact scalar? t
  · split
    · exact nothing
    · exact array? _

end Above

/-! ### Answers -/

lemma accessor?_noWorse (h : Below s t) : NoWorse (accessor? s) (accessor? t) := by
  have hserializable : isSerializable s = true → isSerializable t = true := by
    unfold isSerializable
    rw [← h.dimensions_eq]
    exact serializableWith_of_below h s.dimensions
  apply NoWorse.or (specific?_noWorse h) (.ite hserializable (.refl none) (by decide))
  intro b hb
  have hrank : 1 < b.rank := Above.specific? t b hb
  split
  · exact hrank
  · exact Nat.lt_of_succ_lt hrank

lemma rank_bundle (t : FieldType) : rank (bundle t) = grade (accessor? t) := by
  unfold bundle
  cases accessor? t <;> rfl

/-- A type that cannot be kept is shown as it was written, whatever is known of it. -/
lemma bundle_eq_of_accessor? (hrender : s.render = t.render) (h : accessor? s = accessor? t) :
    bundle s = bundle t := by
  rw [bundle, bundle, h, hrender]

/-- **Where more supertypes are known, no accessor gets worse.** Whatever type is resolved, and
whatever it knew before, a hierarchy in which each class has at least the supertypes that it has
in another leads to an accessor of the same rank or of a higher one. Accessors of the same rank
are one and the same. -/
theorem resolution_grows_with_hierarchy {h g : Hierarchy}
    (hsub : ∀ n, h.parents n ⊆ g.parents n) (t : FieldType) :
    rank (bundle (t.inherit h.parents)) ≤ rank (bundle (t.inherit g.parents)) ∧
    (rank (bundle (t.inherit h.parents)) = rank (bundle (t.inherit g.parents)) →
      bundle (t.inherit h.parents) = bundle (t.inherit g.parents)) := by
  have hrender : (t.inherit h.parents).render = (t.inherit g.parents).render := by
    rw [render_inherit, render_inherit]
  rw [rank_bundle, rank_bundle]
  rcases accessor?_noWorse (inherit_below hsub t) with hsame | hbetter
  · rw [hsame]
    exact ⟨Nat.le_refl _, fun _ => bundle_eq_of_accessor? hrender hsame⟩
  · exact ⟨Nat.le_of_lt hbetter, fun hrank => absurd hrank (Nat.ne_of_lt hbetter)⟩

/-- Arrays of a class of which one supertype after the other becomes known, and a list of such
arrays, whose own accessor stays. -/
theorem resolution_grows_with_hierarchy_step_by_step :
    let users : FieldType := { FieldType.named "a.User" with dimensions := 1 }
    let list : FieldType := ⟨"java.util.ArrayList", [users], 0, .empty⟩
    let one := Hierarchy.ofList [("a.User", ["java.io.Serializable"])]
    let two := Hierarchy.ofList [("a.User", ["java.io.Serializable", "java.lang.CharSequence"])]
    (∀ n, one.parents n ⊆ two.parents n) ∧
      bundle (users.inherit Hierarchy.empty.parents) = .error ⟨"a.User[]"⟩ ∧
      bundle (users.inherit one.parents) = .ok .serializable ∧
      1 ≤ rank (bundle (users.inherit two.parents)) ∧
      bundle (users.inherit two.parents) = .ok .charSequenceArray ∧
      bundle (list.inherit one.parents) = bundle (list.inherit two.parents) := by
  intro users list one two
  have hsub : ∀ n, one.parents n ⊆ two.parents n :=
    Hierarchy.parents_subset_of_entries (by decide +kernel)
  have hone : bundle (users.inherit one.parents) = .ok .serializable := by decide +kernel
  have hrank : rank (bundle (list.inherit one.parents)) =
      rank (bundle (list.inherit two.parents)) := by decide +kernel
  refine ⟨hsub, by decide +kernel, hone, ?_, by decide +kernel, ?_⟩
  · have hgrows := (resolution_grows_with_hierarchy hsub users).1
    rw [hone] at hgrows
    exact hgrows
  · exact (resolution_grows_with_hierarchy hsub list).2 hrank

end Resolver

end SavedState
