import SavedState.Text.Order

/-!
Finite sets of names, kept as the list of their members in increasing order. Two sets with the
same members are equal.
-/

namespace SavedState

structure NameSet where
  toList : List String
  sorted : toList.Pairwise fun a b => Text.isBefore a b
deriving DecidableEq

namespace NameSet

def empty : NameSet := ⟨[], .nil⟩

def contains (s : NameSet) (name : String) : Bool := s.toList.contains name

/-- Puts a name into its place in an increasing list. -/
def place (name : String) : List String → List String
  | [] => [name]
  | a :: as =>
    if Text.isBefore name a then name :: a :: as
    else if name = a then a :: as
    else a :: place name as

theorem mem_place {name x : String} {l : List String} : x ∈ place name l ↔ x = name ∨ x ∈ l := by
  induction l with
  | nil => simp [place]
  | cons a as ih =>
    simp only [place]
    split
    · simp
    · split
      · simp_all
      · simp only [List.mem_cons, ih]; grind

theorem pairwise_place {name : String} {l : List String}
    (h : l.Pairwise fun a b => Text.isBefore a b) :
    (place name l).Pairwise fun a b => Text.isBefore a b := by
  induction l with
  | nil => simp [place]
  | cons a as ih =>
    rw [List.pairwise_cons] at h
    simp only [place]
    split
    · rename_i hlt
      refine List.pairwise_cons.2 ⟨?_, List.pairwise_cons.2 h⟩
      intro x hx
      rcases List.mem_cons.1 hx with rfl | hx
      · exact hlt
      · exact Text.isBefore_trans hlt (h.1 x hx)
    · split
      · exact List.pairwise_cons.2 h
      · rename_i hlt hne
        refine List.pairwise_cons.2 ⟨?_, ih h.2⟩
        intro x hx
        rcases mem_place.1 hx with rfl | hx
        · rcases Text.isBefore_or_eq_or_isBefore x a with h' | h' | h'
          · exact absurd h' hlt
          · exact absurd h' hne
          · exact h'
        · exact h.1 x hx

def insert (s : NameSet) (name : String) : NameSet := ⟨place name s.toList, pairwise_place s.sorted⟩

def insertAll (s : NameSet) (names : List String) : NameSet := names.foldl insert s

def ofList (names : List String) : NameSet := empty.insertAll names

instance : Membership String NameSet := ⟨fun s name => name ∈ s.toList⟩

theorem mem_def {s : NameSet} {name : String} : name ∈ s ↔ name ∈ s.toList := Iff.rfl

@[simp] theorem contains_iff {s : NameSet} {name : String} : s.contains name = true ↔ name ∈ s := by
  simp [contains, mem_def]

@[simp] theorem not_mem_empty {name : String} : name ∉ empty := by simp [mem_def, empty]

@[simp] theorem mem_insert {s : NameSet} {name x : String} :
    x ∈ s.insert name ↔ x = name ∨ x ∈ s := mem_place

@[simp] theorem mem_insertAll {s : NameSet} {names : List String} {x : String} :
    x ∈ s.insertAll names ↔ x ∈ names ∨ x ∈ s := by
  unfold insertAll
  induction names generalizing s with
  | nil => simp
  | cons n ns ih => simp [ih]; grind

@[simp] theorem mem_ofList {names : List String} {x : String} : x ∈ ofList names ↔ x ∈ names := by
  simp [ofList]

end NameSet

end SavedState
