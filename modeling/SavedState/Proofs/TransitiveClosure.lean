import Mathlib.Logic.Function.Iterate
import SavedState.Proofs.Inheritance

/-!
Closed hierarchies as transitive closures.

A class comes to have all classes at the end of a path of supertypes as its supertypes, itself
left out. Paths that come back to a class do no harm: the search for them follows a name no more
than once, so it takes no more turns than there are names of supertypes, and one for its start.
Paths through a closed hierarchy are paths through the one it was made from, so closing it again
changes nothing, and paths stay where a hierarchy is enlarged.
-/

namespace SavedState.Hierarchy

variable {h g : Hierarchy} {a b x : String}

/-! ### Turns -/

/-- The search comes to its end by turns, and by no more of them than there can be. -/
lemma exists_iterate_turn (h : Hierarchy) (origin : String) (s : Search) :
    ∃ n ≤ h.turnsLeft s, (h.turn origin)^[n] s = ⟨[], h.search origin s⟩ := by
  induction s using search.induct h origin with
  | case1 s hdone =>
    refine ⟨0, Nat.zero_le _, ?_⟩
    rw [search, dif_pos hdone, ← hdone]
    rfl
  | case2 s hmore _ ih =>
    obtain ⟨n, hn, hturns⟩ := ih
    refine ⟨n + 1, Nat.lt_of_le_of_lt hn (h.turnsLeft_turn_lt origin hmore), ?_⟩
    rw [Function.iterate_succ_apply, hturns]
    conv_rhs => rw [search, dif_neg hmore]

lemma turnsLeft_start (h : Hierarchy) (origin : String) :
    h.turnsLeft (.start origin) = h.supertypes.toList.length + 1 := by
  have hunseen : h.unseen .empty = h.supertypes.toList.length := by
    refine congrArg List.length (List.filter_eq_self.2 fun x _ => ?_)
    rw [Bool.not_eq_true', ← Bool.not_eq_true, NameSet.contains_iff]
    exact NameSet.not_mem_empty
  exact congrArg (· + 1) hunseen

/-! ### Paths -/

lemma mem_parents_closed_iff :
    x ∈ h.closed.parents a ↔ x ≠ a ∧ Relation.TransGen (fun c d => d ∈ h.parents c) a x := by
  rw [mem_parents_closed, Reaches, Relation.reflTransGen_iff_eq_or_transGen]
  exact and_congr_right fun hx => or_iff_right hx

lemma reaches_closed_iff : h.closed.Reaches a x ↔ h.Reaches a x := by
  constructor
  · intro hx
    refine Relation.ReflTransGen.trans_induction_on hx (fun _ => .refl) (fun hstep => ?_)
      fun _ _ => .trans
    exact (mem_parents_closed.1 hstep).2
  · intro hx
    by_cases he : x = a
    · rw [he]
      exact .refl
    · exact .single (mem_parents_closed.2 ⟨he, hx⟩)

lemma Reaches.mono (hsub : ∀ c, h.parents c ⊆ g.parents c) (hx : h.Reaches a x) : g.Reaches a x :=
  Relation.ReflTransGen.mono (fun _ _ hstep => hsub _ hstep) a x hx

lemma keys_closed (h : Hierarchy) : h.closed.entries.map (·.1) = h.entries.map (·.1) :=
  List.map_map

lemma ancestors_closed (h : Hierarchy) (a : String) : h.closed.ancestors a = h.ancestors a :=
  NameSet.ext_iff.2 fun x => by rw [mem_ancestors, mem_ancestors, reaches_closed_iff]

lemma eq_of_entries_eq (he : h.entries = g.entries) : h = g := by
  cases h
  cases g
  cases he
  rfl

lemma closed_closed (h : Hierarchy) : h.closed.closed = h.closed := by
  refine eq_of_entries_eq ?_
  have hmap : h.closed.closed.entries = h.entries.map fun e => (e.1, h.closed.ancestors e.1) :=
    List.map_map
  simp only [hmap, ancestors_closed]
  rfl

lemma parents_closed_subset (hsub : ∀ c, h.parents c ⊆ g.parents c) (a : String) :
    h.closed.parents a ⊆ g.closed.parents a := by
  intro x hx
  obtain ⟨hne, hpath⟩ := mem_parents_closed.1 hx
  exact mem_parents_closed.2 ⟨hne, hpath.mono hsub⟩

/-- **A closed hierarchy is the transitive closure of the one it is made from**, without pairs of
a class and itself. The search for the ancestors of a class ends, with nothing left to be followed,
after no more turns than there are names of supertypes and one. The closed hierarchy describes the
same classes, and each with the others that a path of supertypes leads to. A closed hierarchy stays
as it is when it is closed, and no ancestor is lost where more supertypes are named. -/
theorem closed_is_transitive_closure (h : Hierarchy) :
    (∀ a, ∃ n ≤ h.supertypes.toList.length + 1,
      (h.turn a)^[n] (.start a) = ⟨[], h.ancestors a⟩) ∧
    h.closed.entries.map (·.1) = h.entries.map (·.1) ∧
    (∀ a b, b ∈ h.closed.parents a ↔
      b ≠ a ∧ Relation.TransGen (fun c d => d ∈ h.parents c) a b) ∧
    h.closed.closed = h.closed ∧
    ∀ g : Hierarchy, (∀ a, h.parents a ⊆ g.parents a) →
      ∀ a, h.closed.parents a ⊆ g.closed.parents a := by
  refine ⟨fun a => ?_, h.keys_closed, fun a b => mem_parents_closed_iff, h.closed_closed,
    fun g hsub a => parents_closed_subset hsub a⟩
  rw [← h.turnsLeft_start a]
  exact h.exists_iterate_turn a (.start a)

/-- It is enough to look at the classes that are described. -/
lemma parents_subset_of_entries (hsub : ∀ e ∈ h.entries, h.parents e.1 ⊆ g.parents e.1)
    (a : String) : h.parents a ⊆ g.parents a := by
  intro x hx
  obtain ⟨s, hs, -⟩ := mem_parents_iff.1 hx
  obtain ⟨front, back, hentries, -⟩ := List.lookup_eq_some_iff.1 hs
  exact hsub (a, s) (by simp [hentries]) hx

/-- Two classes extend each other, and a path from the one leads through the other and back. All
ancestors stay where the other class gets one more supertype. -/
theorem closed_is_transitive_closure_cycle :
    let h := ofList [("a.A", ["a.B", "a.D"]), ("a.B", ["a.A", "a.C"])]
    let g := ofList [("a.A", ["a.B", "a.D"]), ("a.B", ["a.A", "a.C", "a.E"])]
    "a.D" ∈ h.closed.parents "a.B" ∧ "a.B" ∉ h.closed.parents "a.B" ∧
      (∀ a, h.parents a ⊆ g.parents a) ∧ "a.D" ∈ g.closed.parents "a.B" ∧
      "a.E" ∈ g.closed.parents "a.A" := by
  intro h g
  obtain ⟨-, -, hpaths, -, hgrows⟩ := closed_is_transitive_closure h
  have hback : "a.D" ∈ h.closed.parents "a.B" :=
    (hpaths _ _).2 ⟨by decide, .head (b := "a.A") (by decide +kernel) (.single (by decide +kernel))⟩
  have hsub : ∀ a, h.parents a ⊆ g.parents a := parents_subset_of_entries (by decide +kernel)
  refine ⟨hback, fun hself => ((hpaths _ _).1 hself).1 rfl, hsub, hgrows g hsub _ hback, ?_⟩
  exact ((closed_is_transitive_closure g).2.2.1 _ _).2
    ⟨by decide, .head (b := "a.B") (by decide +kernel) (.single (by decide +kernel))⟩

end SavedState.Hierarchy
