import SavedState.Identifier
import SavedState.Text.Order
import SavedState.Text.Segments
import SavedState.TypeSyntax

/-!
The class that declares a field: a package and a name, both made of segments with dots between
them. Where the package ends does not matter for which class is meant: two declaring types are
the same when their segments agree, and they are ordered by their segments.
-/

namespace SavedState

structure DeclaringType where
  package : String
  name : String
deriving DecidableEq, Repr

namespace DeclaringType

def segments (d : DeclaringType) : List String :=
  (Text.segments d.package).filter (· ≠ "") ++ Text.segments d.name

def same (a b : DeclaringType) : Bool := a.segments == b.segments

def compare (a b : DeclaringType) : Ordering :=
  List.compareLex Text.compareTexts a.segments b.segments

/-- What a hash comes to when it takes in the segments, where `write` is how it takes in one. -/
def feed {σ : Type} (write : String → σ → σ) (d : DeclaringType) (state : σ) : σ :=
  d.segments.foldl (fun state segment => write segment state) state

def qualified (d : DeclaringType) : String :=
  if d.package = "" then d.name else d.package ++ "." ++ d.name

/-- The last segment of the name. -/
def simple (d : DeclaringType) : String :=
  (Text.segments d.name).getLast (Text.segments_ne_nil d.name)

/-- The key under which a field of `d` is saved. -/
def fieldKey (d : DeclaringType) (field : String) : String := d.qualified ++ "." ++ field

/-- Whether a segment looks like the name of a class and not like a part of a package. -/
def isClassLike (segment : String) : Bool :=
  match segment.toList with
  | [] => false
  | c :: _ => c.isUpper

/-- Splits segments before the first one that looks like a class, else before the last one. -/
def ofSegments (names : List String) : DeclaringType :=
  let split := names.findIdx isClassLike
  let split := if split < names.length then split else names.length - 1
  ⟨Text.dotted (names.take split), Text.dotted (names.drop split)⟩

def read (s : String) : Except TypeSyntaxError DeclaringType :=
  let names := Text.segments s
  if names.all fun n => isIdentifier n.toList then .ok (ofSegments names)
  else .error (.notDotted s)

theorem same_iff {a b : DeclaringType} : a.same b = true ↔ a.segments = b.segments := by
  simp [same]

@[simp] theorem same_refl (d : DeclaringType) : d.same d = true := by simp [same]

theorem same_symm {a b : DeclaringType} (h : a.same b = true) : b.same a = true := by
  rw [same_iff] at *; exact h.symm

theorem same_trans {a b c : DeclaringType} (hab : a.same b = true) (hbc : b.same c = true) :
    a.same c = true := by
  rw [same_iff] at *; exact hab.trans hbc

theorem same_comm (a b : DeclaringType) : a.same b = b.same a := by
  rw [Bool.eq_iff_iff]
  exact ⟨same_symm, same_symm⟩

theorem same_congr_left {a b : DeclaringType} (h : a.same b = true) (c : DeclaringType) :
    a.same c = b.same c := by
  rw [Bool.eq_iff_iff]
  exact ⟨same_trans (same_symm h), same_trans h⟩

theorem same_congr_right {a b : DeclaringType} (h : a.same b = true) (c : DeclaringType) :
    c.same a = c.same b := by
  rw [same_comm c a, same_comm c b, same_congr_left h]

theorem compare_eq_eq {a b : DeclaringType} : a.compare b = .eq ↔ a.same b = true := by
  rw [same_iff, compare]
  exact ⟨Std.LawfulEqCmp.eq_of_compare, fun h => h ▸ Std.ReflCmp.compare_self⟩

end DeclaringType

end SavedState
