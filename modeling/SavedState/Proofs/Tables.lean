import Mathlib.Tactic.Common

/-!
Tables with one value under each key. Files by place and settings by name are kept in such
tables, each with its own way to set a value; what is found afterwards is the same for all.
-/

namespace SavedState.Table

variable {κ ν : Type} [BEq κ] [LawfulBEq κ] [DecidableEq κ]

lemma lookup_cons (k : κ) (e : κ × ν) (t : List (κ × ν)) :
    List.lookup k (e :: t) = if k = e.1 then some e.2 else List.lookup k t := by
  rw [List.lookup_cons]
  by_cases h : k = e.1
  · rw [if_pos h, beq_iff_eq.2 h]
  · rw [if_neg h, beq_eq_false_iff_ne.2 h]

/-- What is found where `set` puts a value in the place of the first one under its key, or else
at the end. -/
lemma lookup_set (set : List (κ × ν) → List (κ × ν)) {key : κ} {value : ν}
    (hnil : set [] = [(key, value)])
    (hcons : ∀ e t, set (e :: t) = if e.1 = key then (key, value) :: t else e :: set t)
    (t : List (κ × ν)) (k : κ) :
    (set t).lookup k = if k = key then some value else t.lookup k := by
  induction t with
  | nil =>
    rw [hnil]
    exact lookup_cons k (key, value) []
  | cons e t ih =>
    rw [hcons, lookup_cons k e t]
    split
    · rename_i he
      rw [lookup_cons, he]
      split <;> rfl
    · rename_i he
      rw [lookup_cons, ih]
      by_cases hk : k = e.1
      · have hne : ¬k = key := hk ▸ he
        rw [if_pos hk, if_neg hne, if_pos hk]
      · rw [if_neg hk, if_neg hk]

/-- What is found where every value is replaced by one that depends on its key. -/
lemma lookup_map {μ : Type} (f : κ → μ) (t : List (κ × ν)) (k : κ) :
    (t.map fun e => (e.1, f e.1)).lookup k = (t.lookup k).map fun _ => f k := by
  induction t with
  | nil => rfl
  | cons e t ih =>
    rw [List.map_cons, lookup_cons, lookup_cons, ih]
    split
    · rename_i hk
      rw [hk]
      rfl
    · rfl

end SavedState.Table
