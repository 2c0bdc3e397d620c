import SavedState.Proofs.Ancestry
import SavedState.Proofs.TypeRendering

/-!
What a type learns of its classes from the hierarchy of its manifest.

Every class that a type mentions is handed its ancestors, at any depth of the type, so two
manifests make the same of a text just if they know the same of every class in it.
-/

namespace SavedState

lemma NameSet.ext_iff {s t : NameSet} : s = t ↔ ∀ x, x ∈ s ↔ x ∈ t := by
  refine ⟨fun h x => h ▸ Iff.rfl, fun h => ?_⟩
  have hnodup : ∀ u : NameSet, u.toList.Nodup := fun u =>
    u.sorted.imp fun {a b} hab he => by
      rw [he, Text.isBefore_irrefl] at hab
      exact Bool.false_ne_true hab
  have hperm : s.toList.Perm t.toList := (List.perm_ext_iff_of_nodup (hnodup s) (hnodup t)).2 h
  have hlist : s.toList = t.toList := by
    refine hperm.eq_of_pairwise (fun a b _ _ hab hba => ?_) s.sorted t.sorted
    have := Text.isBefore_trans hab hba
    rw [Text.isBefore_irrefl] at this
    exact absurd this Bool.false_ne_true
  cases s
  cases t
  cases hlist
  rfl

namespace FieldType

variable {parents other : String → List String}

lemma inherit_eq (parents : String → List String) (t : FieldType) :
    t.inherit parents = ⟨t.name, inheritAll parents t.arguments, t.dimensions,
      t.supertypes.insertAll (parents t.name)⟩ := by
  cases t
  rw [inherit]

mutual

lemma bare_inherit : ∀ t : FieldType, (t.inherit parents).bare = t.bare
  | ⟨name, arguments, dimensions, supertypes⟩ => by
    rw [inherit, bare, bare, bareAll_inheritAll arguments]

lemma bareAll_inheritAll : ∀ l : List FieldType, bareAll (inheritAll parents l) = bareAll l
  | [] => rfl
  | a :: as => by rw [inheritAll, bareAll, bareAll, bare_inherit a, bareAll_inheritAll as]

end

mutual

/-- Where no class has parents, nothing is inherited. -/
lemma inherit_of_no_parents (h : ∀ n, parents n = []) : ∀ t : FieldType, t.inherit parents = t
  | ⟨name, arguments, dimensions, supertypes⟩ => by
    rw [inherit, h, inheritAll_of_no_parents h arguments]
    rfl

lemma inheritAll_of_no_parents (h : ∀ n, parents n = []) : ∀ l : List FieldType,
    inheritAll parents l = l
  | [] => rfl
  | a :: as => by rw [inheritAll, inherit_of_no_parents h a, inheritAll_of_no_parents h as]

end

mutual

lemma render_bare : ∀ t : FieldType, t.bare.render = t.render
  | ⟨name, arguments, dimensions, supertypes⟩ => by
    rw [bare, render, render, renderArguments_bareAll arguments]

lemma renderArguments_bareAll : ∀ l : List FieldType,
    renderArguments (bareAll l) = renderArguments l
  | [] => rfl
  | a :: as => by
    rw [bareAll, renderArguments, renderArguments, render_bare a, renderMore_bareAll as]

lemma renderMore_bareAll : ∀ l : List FieldType, renderMore (bareAll l) = renderMore l
  | [] => rfl
  | a :: as => by rw [bareAll, renderMore, renderMore, render_bare a, renderMore_bareAll as]

end

/-- What a type inherits is not shown. -/
lemma render_inherit (t : FieldType) : (t.inherit parents).render = t.render := by
  rw [← render_bare, bare_inherit, render_bare]

mutual

/-- **A type inherits the same twice** just if the same is known of its names both times. -/
theorem inherit_bare_eq_iff (t : FieldType) : t.bare.inherit parents = t.bare.inherit other ↔
    ∀ n ∈ t.mentions, ∀ x, x ∈ parents n ↔ x ∈ other n := by
  match t with
  | ⟨name, arguments, dimensions, _⟩ =>
    have hsupertypes : NameSet.empty.insertAll (parents name) =
        NameSet.empty.insertAll (other name) ↔ ∀ x, x ∈ parents name ↔ x ∈ other name := by
      simp [NameSet.ext_iff]
    rw [bare, inherit, inherit, mentions, List.forall_mem_cons, ← hsupertypes,
      ← inheritAll_bareAll_eq_iff arguments, FieldType.mk.injEq]
    exact ⟨fun h => ⟨h.2.2.2, h.2.1⟩, fun h => ⟨rfl, h.2, rfl, h.1⟩⟩

theorem inheritAll_bareAll_eq_iff (l : List FieldType) :
    inheritAll parents (bareAll l) = inheritAll other (bareAll l) ↔
      ∀ n ∈ mentionsAll l, ∀ x, x ∈ parents n ↔ x ∈ other n := by
  match l with
  | [] => simp [bareAll, inheritAll, mentionsAll]
  | a :: as =>
    rw [bareAll, inheritAll, inheritAll, mentionsAll, List.forall_mem_append,
      ← inherit_bare_eq_iff a, ← inheritAll_bareAll_eq_iff as, List.cons.injEq]

end

end FieldType

end SavedState
