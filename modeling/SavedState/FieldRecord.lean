import SavedState.DeclaringType
import SavedState.Resolver

/-!
Fields that are ready to be saved, and the sets that they are collected in. A record is known by
all that it holds: two records are one only if name, key, type and accessor agree.
-/

namespace SavedState

structure FieldRecord where
  name : String
  key : String
  type : FieldType
  accessor : Accessor
deriving DecidableEq

def FieldRecord.of (owner : DeclaringType) (name : String) (type : FieldType)
    (accessor : Accessor) : FieldRecord :=
  ⟨name, owner.fieldKey name, type, accessor⟩

/-- Records in the order in which they were first seen. -/
structure FieldSet where
  toList : List FieldRecord
  nodup : toList.Nodup
deriving DecidableEq

namespace FieldSet

def empty : FieldSet := ⟨[], .nil⟩

def size (s : FieldSet) : Nat := s.toList.length

def contains (s : FieldSet) (r : FieldRecord) : Bool := s.toList.contains r

theorem nodup_concat {l : List FieldRecord} {r : FieldRecord} (h : l.Nodup) (hr : r ∉ l) :
    (l ++ [r]).Nodup := by
  rw [List.nodup_append]
  exact ⟨h, by simp, by intro a ha b hb; simp at hb; subst hb; exact fun e => hr (e ▸ ha)⟩

def insert (s : FieldSet) (r : FieldRecord) : FieldSet :=
  if h : r ∈ s.toList then s else ⟨s.toList ++ [r], nodup_concat s.nodup h⟩

def ofList (rs : List FieldRecord) : FieldSet := rs.foldl insert empty

theorem toList_insert (s : FieldSet) (r : FieldRecord) :
    (s.insert r).toList = if r ∈ s.toList then s.toList else s.toList ++ [r] := by
  unfold insert
  split <;> simp_all

theorem contains_iff {s : FieldSet} {r : FieldRecord} :
    s.contains r = true ↔ r ∈ s.toList := by
  simp [contains]

end FieldSet

end SavedState
