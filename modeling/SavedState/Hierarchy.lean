import SavedState.NameSet

/-!
What classes extend: for each class that is described, the names of its supertypes. Closing a
hierarchy adds the supertypes of supertypes; cycles do no harm, and no class becomes its own
supertype. The supertypes of a class are followed one after another, each of them once.
-/

namespace SavedState

structure Hierarchy where
  entries : List (String × NameSet)
  sorted : entries.Pairwise fun a b => Text.isBefore a.1 b.1
deriving DecidableEq

namespace Hierarchy

def empty : Hierarchy := ⟨[], .nil⟩

/-- Puts an entry into its place among entries in the order of their names. -/
def place (name : String) (parents : NameSet) : List (String × NameSet) → List (String × NameSet)
  | [] => [(name, parents)]
  | e :: es =>
    if Text.isBefore name e.1 then (name, parents) :: e :: es
    else if name = e.1 then (name, parents) :: es
    else e :: place name parents es

theorem mem_place {name : String} {parents : NameSet} {l : List (String × NameSet)}
    {x : String × NameSet} (h : x ∈ place name parents l) : x = (name, parents) ∨ x ∈ l := by
  induction l with
  | nil => simpa [place] using h
  | cons e es ih =>
    simp only [place] at h
    split at h
    · simpa using h
    · split at h
      · rcases List.mem_cons.1 h with h | h
        · exact Or.inl h
        · exact Or.inr (List.mem_cons_of_mem _ h)
      · rcases List.mem_cons.1 h with h | h
        · exact Or.inr (by simp [h])
        · rcases ih h with h | h
          · exact Or.inl h
          · exact Or.inr (List.mem_cons_of_mem _ h)

theorem pairwise_place {name : String} {parents : NameSet} {l : List (String × NameSet)}
    (h : l.Pairwise fun a b => Text.isBefore a.1 b.1) :
    (place name parents l).Pairwise fun a b => Text.isBefore a.1 b.1 := by
  induction l with
  | nil => simp [place]
  | cons e es ih =>
    rw [List.pairwise_cons] at h
    simp only [place]
    split
    · rename_i hlt
      refine List.pairwise_cons.2 ⟨?_, List.pairwise_cons.2 h⟩
      intro x hx
      rcases List.mem_cons.1 hx with rfl | hx
      · exact hlt
      · exact Text.isBefore_trans hlt (h.1 x hx)
    · split
      · rename_i heq
        exact List.pairwise_cons.2 ⟨fun x hx => heq ▸ h.1 x hx, h.2⟩
      · rename_i hlt hne
        refine List.pairwise_cons.2 ⟨?_, ih h.2⟩
        intro x hx
        rcases mem_place hx with rfl | hx
        · rcases Text.isBefore_or_eq_or_isBefore name e.1 with h' | h' | h'
          · exact absurd h' hlt
          · exact absurd h' hne
          · exact h'
        · exact h.1 x hx

/-- Sets the supertypes of a class, in place of any that it had. -/
def put (h : Hierarchy) (name : String) (parents : NameSet) : Hierarchy :=
  ⟨place name parents h.entries, pairwise_place h.sorted⟩

def ofList (l : List (String × List String)) : Hierarchy :=
  l.foldl (fun h e => h.put e.1 (.ofList e.2)) empty

/-- The supertypes of a class; none if it is not described. -/
def parents (h : Hierarchy) (name : String) : List String :=
  match h.entries.lookup name with
  | none => []
  | some s => s.toList

/-- The supertypes that are named, whatever they are supertypes of. -/
def supertypes (h : Hierarchy) : NameSet := .ofList (h.entries.flatMap fun e => e.2.toList)

theorem mem_supertypes {h : Hierarchy} {name x : String} (hx : x ∈ h.parents name) :
    x ∈ h.supertypes := by
  unfold parents at hx
  split at hx
  · cases hx
  · rename_i s hs
    obtain ⟨front, back, hentries, -⟩ := List.lookup_eq_some_iff.1 hs
    simp only [supertypes, NameSet.mem_ofList, List.mem_flatMap]
    exact ⟨(name, s), by simp [hentries], hx⟩

/-! ### The search for ancestors -/

/-- How far the search for the ancestors of a class has come: the names that are still to be
followed, the next one first, and the ancestors that have been seen. -/
structure Search where
  pending : List String
  seen : NameSet
deriving DecidableEq

namespace Search

def start (origin : String) : Search := ⟨[origin], .empty⟩

/-- Meets a supertype, which is to be followed then, unless it is the class itself or has been
seen before. -/
def meet (origin : String) (s : Search) (parent : String) : Search :=
  if parent = origin ∨ s.seen.contains parent = true then s
  else ⟨parent :: s.pending, s.seen.insert parent⟩

end Search

/-- One turn: the next name is followed, and all of its supertypes are met. -/
def turn (h : Hierarchy) (origin : String) (s : Search) : Search :=
  match s.pending with
  | [] => s
  | name :: pending => (h.parents name).foldl (Search.meet origin) ⟨pending, s.seen⟩

/-- How many of the supertypes that are named have not been seen. -/
def unseen (h : Hierarchy) (seen : NameSet) : Nat :=
  (h.supertypes.toList.filter fun x => !seen.contains x).length

theorem unseen_insert_lt {h : Hierarchy} {seen : NameSet} {x : String} (hx : x ∈ h.supertypes)
    (hnew : x ∉ seen) : h.unseen (seen.insert x) < h.unseen seen := by
  have hfilter : (h.supertypes.toList.filter fun y => !(seen.insert x).contains y) =
      (h.supertypes.toList.filter fun y => !seen.contains y).filter fun y => y ≠ x := by
    rw [List.filter_filter]
    refine List.filter_congr fun y _ => ?_
    rw [Bool.eq_iff_iff]
    simp [← Bool.not_eq_true]
  unfold unseen
  rw [hfilter, List.length_filter_lt_length_iff_exists]
  refine ⟨x, List.mem_filter.2 ⟨hx, ?_⟩, by simp⟩
  simp [← Bool.not_eq_true, hnew]

/-- How many turns there are at most: each name on the list is followed, and so is each one that
comes onto it later. -/
def turnsLeft (h : Hierarchy) (s : Search) : Nat := h.unseen s.seen + s.pending.length

theorem turnsLeft_meet_le (h : Hierarchy) (origin : String) (s : Search) {parent : String}
    (hparent : parent ∈ h.supertypes) : h.turnsLeft (s.meet origin parent) ≤ h.turnsLeft s := by
  unfold Search.meet
  split
  · exact Nat.le_refl _
  · rename_i hnew
    simp only [not_or, NameSet.contains_iff] at hnew
    have hlt := unseen_insert_lt hparent hnew.2
    simp only [turnsLeft, List.length_cons]
    omega

theorem turnsLeft_foldl_meet_le (h : Hierarchy) (origin : String) (s : Search) (l : List String)
    (hl : ∀ x ∈ l, x ∈ h.supertypes) :
    h.turnsLeft (l.foldl (Search.meet origin) s) ≤ h.turnsLeft s := by
  induction l generalizing s with
  | nil => exact Nat.le_refl _
  | cons x l ih =>
    rw [List.forall_mem_cons] at hl
    exact Nat.le_trans (ih _ hl.2) (h.turnsLeft_meet_le origin s hl.1)

theorem turnsLeft_turn_lt (h : Hierarchy) (origin : String) {s : Search} (hs : s.pending ≠ []) :
    h.turnsLeft (h.turn origin s) < h.turnsLeft s := by
  obtain ⟨pending, seen⟩ := s
  cases pending with
  | nil => exact absurd rfl hs
  | cons name pending =>
    have hle := h.turnsLeft_foldl_meet_le origin ⟨pending, seen⟩ (h.parents name)
      fun _ hx => mem_supertypes hx
    simp only [turn, turnsLeft, List.length_cons] at hle ⊢
    omega

/-- Takes turns until no name is left to be followed. -/
def search (h : Hierarchy) (origin : String) (s : Search) : NameSet :=
  if hs : s.pending = [] then s.seen
  else
    have := h.turnsLeft_turn_lt origin hs
    search h origin (h.turn origin s)
termination_by h.turnsLeft s

/-- All proper ancestors of a class. -/
def ancestors (h : Hierarchy) (name : String) : NameSet := h.search name (.start name)

/-- The same classes, each with all of its ancestors. -/
def closed (h : Hierarchy) : Hierarchy where
  entries := h.entries.map fun e => (e.1, h.ancestors e.1)
  sorted := by simpa [List.pairwise_map] using h.sorted

end Hierarchy

end SavedState
