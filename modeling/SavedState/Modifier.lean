import SavedState.Vocabulary

/-!
The modifiers of a field, and sets of them.
-/

namespace SavedState

inductive Modifier where
  | «public»
  | «protected»
  | «private»
  | static
  | final
  | transient
  | volatile
deriving DecidableEq, Repr

namespace Modifier

def all : List Modifier :=
  [.public, .protected, .private, .static, .final, .transient, .volatile]

def word : Modifier → String
  | .public => "public"
  | .protected => "protected"
  | .private => "private"
  | .static => "static"
  | .final => "final"
  | .transient => "transient"
  | .volatile => "volatile"

def vocabulary : Vocabulary Modifier := ⟨"modifier", all.map fun m => (m.word, m), ""⟩

theorem mem_all (m : Modifier) : m ∈ all := by cases m <;> decide

end Modifier

structure Modifiers where
  has : Modifier → Bool

namespace Modifiers

def empty : Modifiers := ⟨fun _ => false⟩

def insert (s : Modifiers) (m : Modifier) : Modifiers := ⟨fun n => n == m || s.has n⟩

def ofList (ms : List Modifier) : Modifiers := ⟨fun m => ms.contains m⟩

/-- The members, in the order of `Modifier.all`. -/
def toList (s : Modifiers) : List Modifier := Modifier.all.filter s.has

def isEmpty (s : Modifiers) : Bool := s.toList.isEmpty

@[simp] theorem mem_toList {s : Modifiers} {m : Modifier} : m ∈ s.toList ↔ s.has m = true := by
  simp [toList, Modifier.mem_all]

theorem ofList_toList (s : Modifiers) : ofList s.toList = s := by
  obtain ⟨has⟩ := s
  simp only [ofList, mk.injEq]
  funext m
  rw [Bool.eq_iff_iff, List.contains_iff_mem, mem_toList]

theorem toList_inj {s t : Modifiers} : s.toList = t.toList ↔ s = t :=
  ⟨fun h => by rw [← ofList_toList s, h, ofList_toList], fun h => h ▸ rfl⟩

instance : DecidableEq Modifiers := fun _ _ => decidable_of_iff _ toList_inj

end Modifiers

end SavedState
