import Mathlib.Logic.Relation
import SavedState.Hierarchy
import SavedState.Proofs.Tables

/-!
The ancestors of a class, as paths through the entries of a hierarchy.

The search for them keeps three things in order: what it has seen is reached from the class, what
is to be followed is the class or has been seen, and of all that is followed already the
supertypes have been met. So no path is cut: where one comes back to the class, or to a name that
has been seen, the search has been there or will come there.
-/

namespace SavedState.Hierarchy

/-- Whether an entry for `a` names `b`. -/
def Declares (l : List (String × NameSet)) (a b : String) : Prop :=
  ∃ s, l.lookup a = some s ∧ b ∈ s.toList

/-- Whether one gets from `a` to `b` by going from classes to their supertypes. Each class is
reached from itself. -/
def Reaches (h : Hierarchy) : String → String → Prop :=
  Relation.ReflTransGen fun a b => b ∈ h.parents a

variable {l : List (String × NameSet)} {h : Hierarchy} {name a b x : String}

lemma mem_parents_iff : b ∈ h.parents a ↔ Declares h.entries a b := by
  unfold parents Declares
  split
  · rename_i hnone
    simp [hnone]
  · rename_i s hs
    simp [hs]

lemma reaches_iff :
    h.Reaches a b ↔ Relation.ReflTransGen (Declares h.entries) a b := by
  have : (fun a b => b ∈ h.parents a) = Declares h.entries :=
    funext fun a => funext fun b => propext mem_parents_iff
  rw [Reaches, this]

lemma path_iff_of_no_entry (hnone : l.lookup name = none) :
    Relation.ReflTransGen (Declares l) name x ↔ x = name := by
  refine ⟨fun h => ?_, fun h => h ▸ .refl⟩
  rcases h.cases_head with h | ⟨b, ⟨s, hs, -⟩, -⟩
  · exact h.symm
  · rw [hnone] at hs
    cases hs

/-- From a class with one supertype, of which nothing is known, there is one path. -/
lemma reaches_iff_of_single (ha : h.parents a = [b])
    (hb : h.entries.lookup b = none) : h.Reaches a x ↔ x = a ∨ x = b := by
  constructor
  · intro hx
    rcases Relation.ReflTransGen.cases_head hx with rfl | ⟨c, hc, hx⟩
    · exact Or.inl rfl
    · rw [ha, List.mem_singleton] at hc
      subst hc
      exact Or.inr ((path_iff_of_no_entry hb).1 (reaches_iff.1 hx))
  · rintro (rfl | rfl)
    · exact .refl
    · exact .single (ha ▸ List.mem_singleton_self _)

/-! ### Meeting supertypes -/

namespace Search

variable {origin : String} {s : Search} {parents : List String}

lemma mem_seen_meet {parent : String} :
    x ∈ (s.meet origin parent).seen ↔ x ∈ s.seen ∨ x = parent ∧ x ≠ origin := by
  unfold meet
  split
  · rename_i hold
    rw [NameSet.contains_iff] at hold
    refine ⟨Or.inl, ?_⟩
    rintro (hx | ⟨rfl, hne⟩)
    · exact hx
    · exact hold.resolve_left hne
  · rename_i hnew
    rw [not_or] at hnew
    rw [NameSet.mem_insert, or_comm]
    exact or_congr_right ⟨fun hx => ⟨hx, hx ▸ hnew.1⟩, And.left⟩

lemma mem_pending_meet {parent : String} : x ∈ (s.meet origin parent).pending ↔
    x ∈ s.pending ∨ x = parent ∧ x ≠ origin ∧ x ∉ s.seen := by
  unfold meet
  split
  · rename_i hold
    rw [NameSet.contains_iff] at hold
    refine ⟨Or.inl, ?_⟩
    rintro (hx | ⟨rfl, hne, hnew⟩)
    · exact hx
    · exact absurd (hold.resolve_left hne) hnew
  · rename_i hnew
    rw [NameSet.contains_iff, not_or] at hnew
    rw [List.mem_cons, or_comm]
    exact or_congr_right ⟨fun hx => ⟨hx, hx ▸ hnew⟩, And.left⟩

/-- All supertypes but the class itself have been seen once they have been met. -/
lemma mem_seen_foldl_meet :
    x ∈ (parents.foldl (meet origin) s).seen ↔ x ∈ s.seen ∨ x ∈ parents ∧ x ≠ origin := by
  induction parents generalizing s with
  | nil => simp
  | cons p parents ih =>
    rw [List.foldl_cons, ih, mem_seen_meet, List.mem_cons, or_and_right, or_assoc]

/-- Those that are new are to be followed. -/
lemma mem_pending_foldl_meet : x ∈ (parents.foldl (meet origin) s).pending ↔
    x ∈ s.pending ∨ x ∈ parents ∧ x ≠ origin ∧ x ∉ s.seen := by
  induction parents generalizing s with
  | nil => simp
  | cons p parents ih =>
    rw [List.foldl_cons, ih, mem_pending_meet, mem_seen_meet, List.mem_cons]
    by_cases hp : x = p
    · subst hp
      by_cases horigin : x = origin <;> simp [horigin]
    · simp [hp]

end Search

/-! ### The search -/

/-- What is true of the search for the ancestors of a class at any time. -/
structure Search.Explores (h : Hierarchy) (origin : String) (s : Search) : Prop where
  reached : ∀ x ∈ s.seen, x ≠ origin ∧ h.Reaches origin x
  listed : ∀ x ∈ s.pending, x = origin ∨ x ∈ s.seen
  followed : ∀ x, x = origin ∨ x ∈ s.seen → x ∉ s.pending →
    ∀ p ∈ h.parents x, p = origin ∨ p ∈ s.seen

namespace Search

variable {origin : String} {s : Search}

lemma explores_start (h : Hierarchy) (origin : String) : (start origin).Explores h origin where
  reached _ hx := absurd hx NameSet.not_mem_empty
  listed _ hx := Or.inl (List.mem_singleton.1 hx)
  followed x hx hpending := by
    rcases hx with rfl | hx
    · exact absurd (List.mem_singleton_self x) hpending
    · exact absurd hx NameSet.not_mem_empty

/-- **A turn keeps the search in order.** -/
lemma Explores.turn (hs : s.Explores h origin) : (h.turn origin s).Explores h origin := by
  obtain ⟨pending, seen⟩ := s
  cases pending with
  | nil => exact hs
  | cons name pending =>
    have hseen : ∀ x, x ∈ (h.turn origin ⟨name :: pending, seen⟩).seen ↔
        x ∈ seen ∨ x ∈ h.parents name ∧ x ≠ origin := fun x => mem_seen_foldl_meet
    have hpending : ∀ x, x ∈ (h.turn origin ⟨name :: pending, seen⟩).pending ↔
        x ∈ pending ∨ x ∈ h.parents name ∧ x ≠ origin ∧ x ∉ seen :=
      fun x => mem_pending_foldl_meet
    have hname : h.Reaches origin name := by
      rcases hs.listed name List.mem_cons_self with rfl | hname
      · exact .refl
      · exact (hs.reached name hname).2
    refine ⟨fun x hx => ?_, fun x hx => ?_, fun x hx hdone p hp => ?_⟩
    · rcases (hseen x).1 hx with hx | ⟨hx, hne⟩
      · exact hs.reached x hx
      · exact ⟨hne, hname.tail hx⟩
    · rw [hseen]
      rcases (hpending x).1 hx with hx | ⟨hx, hne, -⟩
      · exact (hs.listed x (List.mem_cons_of_mem _ hx)).imp_right Or.inl
      · exact Or.inr (Or.inr ⟨hx, hne⟩)
    · rw [hseen] at hx ⊢
      rw [hpending, not_or] at hdone
      by_cases hx' : x = name
      · -- the name that has been followed: all of its supertypes have just been met
        rw [or_iff_not_imp_left]
        exact fun hne => Or.inr ⟨hx' ▸ hp, hne⟩
      · have hold : x = origin ∨ x ∈ seen := by
          rcases hx with hx | hx | ⟨hx, hne⟩
          · exact Or.inl hx
          · exact Or.inr hx
          · exact Or.inr (by_contra fun hnew => hdone.2 ⟨hx, hne, hnew⟩)
        have hnot : x ∉ name :: pending := List.not_mem_cons_of_ne_of_not_mem hx' hdone.1
        exact (hs.followed x hold hnot p hp).imp_right Or.inl

/-- Where nothing is left to be followed, all that can be reached has been seen. -/
lemma Explores.mem_seen_iff (hs : s.Explores h origin) (hdone : s.pending = []) :
    x ∈ s.seen ↔ x ≠ origin ∧ h.Reaches origin x := by
  have hall : h.Reaches origin x → x = origin ∨ x ∈ s.seen := by
    intro hx
    induction hx with
    | refl => exact Or.inl rfl
    | @tail b c _ hc ih => exact hs.followed b ih (hdone ▸ List.not_mem_nil) c hc
  exact ⟨hs.reached x, fun hx => (hall hx.2).resolve_left hx.1⟩

end Search

/-- **The search finds what paths lead to.** -/
lemma mem_search {origin : String} {s : Search} (hs : s.Explores h origin) :
    x ∈ h.search origin s ↔ x ≠ origin ∧ h.Reaches origin x := by
  induction s using search.induct h origin with
  | case1 s hdone =>
    rw [search, dif_pos hdone]
    exact hs.mem_seen_iff hdone
  | case2 s hmore _ ih =>
    rw [search, dif_neg hmore]
    exact ih hs.turn

lemma mem_ancestors : x ∈ h.ancestors a ↔ x ≠ a ∧ h.Reaches a x :=
  mem_search (Search.explores_start h a)

/-- **A closed hierarchy knows of each class what can be reached from it**, without the class. -/
theorem mem_parents_closed :
    x ∈ h.closed.parents a ↔ x ≠ a ∧ h.Reaches a x := by
  have hlookup : h.closed.entries.lookup a =
      (h.entries.lookup a).map fun _ => h.ancestors a :=
    Table.lookup_map h.ancestors h.entries a
  rw [mem_parents_iff, Declares, hlookup]
  cases hs : h.entries.lookup a with
  | some s => simp [← NameSet.mem_def, mem_ancestors]
  | none =>
    rw [reaches_iff, path_iff_of_no_entry hs]
    simp

end SavedState.Hierarchy
