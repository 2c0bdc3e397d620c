import SavedState.FieldRecord

/-!
The records collected so far, by declaring type.

Types stand in the order in which they were first seen, spelled as they were then; each has the
set of its records. Nothing is ever taken out.
-/

namespace SavedState

structure Store where
  entries : List (DeclaringType × FieldSet)
  distinct : entries.Pairwise fun a b => a.1.same b.1 = false

namespace Store

def empty : Store := ⟨[], .nil⟩

def get? (s : Store) (d : DeclaringType) : Option FieldSet :=
  (s.entries.find? fun e => e.1.same d).map (·.2)

def contains (s : Store) (d : DeclaringType) : Bool := s.entries.any fun e => e.1.same d

/-- Whether `r` is among the records of `d`. -/
def holds (s : Store) (d : DeclaringType) (r : FieldRecord) : Bool :=
  match s.get? d with
  | none => false
  | some fields => fields.contains r

def size (s : Store) : Nat := s.entries.length

def recordCount (s : Store) : Nat := s.entries.foldr (fun e n => e.2.size + n) 0

/-- Adds a record to the entry of its type, or a new entry at the end. -/
def add (d : DeclaringType) (r : FieldRecord) :
    List (DeclaringType × FieldSet) → List (DeclaringType × FieldSet)
  | [] => [(d, FieldSet.empty.insert r)]
  | e :: es => if e.1.same d then (e.1, e.2.insert r) :: es else e :: add d r es

theorem mem_add {d : DeclaringType} {r : FieldRecord} {l : List (DeclaringType × FieldSet)}
    {k : DeclaringType} (h : k ∈ (add d r l).map (·.1)) :
    k ∈ l.map (·.1) ∨ (k = d ∧ ∀ e ∈ l, e.1.same d = false) := by
  induction l with
  | nil => simp [add] at h; simp [h]
  | cons e es ih =>
    simp only [add] at h
    split at h
    · exact Or.inl (by simpa using h)
    · rename_i hne
      rw [List.map_cons, List.mem_cons] at h
      rcases h with rfl | h
      · exact Or.inl (by simp)
      · rcases ih h with h | ⟨rfl, h⟩
        · exact Or.inl (by rw [List.map_cons, List.mem_cons]; exact Or.inr h)
        · refine Or.inr ⟨rfl, ?_⟩
          simp only [List.mem_cons, forall_eq_or_imp]
          exact ⟨by simpa using hne, h⟩

theorem pairwise_add {d : DeclaringType} {r : FieldRecord} {l : List (DeclaringType × FieldSet)}
    (h : l.Pairwise fun a b => a.1.same b.1 = false) :
    (add d r l).Pairwise fun a b => a.1.same b.1 = false := by
  induction l with
  | nil => simp [add]
  | cons e es ih =>
    rw [List.pairwise_cons] at h
    simp only [add]
    split
    · exact List.pairwise_cons.2 h
    · rename_i hne
      refine List.pairwise_cons.2 ⟨?_, ih h.2⟩
      intro x hx
      rcases mem_add (List.mem_map_of_mem (f := (·.1)) hx) with hk | ⟨hk, _⟩
      · obtain ⟨y, hy, he⟩ := List.mem_map.1 hk
        rw [← he]
        exact h.1 y hy
      · rw [hk]
        simpa using hne

def insert (s : Store) (d : DeclaringType) (r : FieldRecord) : Store :=
  ⟨add d r s.entries, pairwise_add s.distinct⟩

end Store

end SavedState
