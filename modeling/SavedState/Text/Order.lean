/-!
The order of texts: by the code points of the first characters that differ, and a text before
every longer one that it begins.
-/

namespace SavedState.Text

def compareChars (a b : Char) : Ordering :=
  if a.toNat < b.toNat then .lt else if b.toNat < a.toNat then .gt else .eq

theorem compareChars_isLE {a b : Char} : (compareChars a b).isLE = true ↔ a.toNat ≤ b.toNat := by
  simp only [compareChars]
  split
  · simp; omega
  · split
    · simp; omega
    · simp; omega

instance transChars : Std.TransCmp compareChars where
  eq_swap {a b} := by
    simp only [compareChars]
    by_cases h : a.toNat < b.toNat
    · simp [h, Nat.lt_asymm h]
    · by_cases h' : b.toNat < a.toNat <;> simp [h, h']
  isLE_trans {a b c} hab hbc := by
    rw [compareChars_isLE] at *
    omega

instance lawfulChars : Std.LawfulEqCmp compareChars where
  eq_of_compare {a b} h := by
    have hab : (compareChars a b).isLE = true := by simp [h]
    have hba : (compareChars b a).isLE = true := by
      rw [@Std.OrientedCmp.eq_swap _ compareChars, h]; rfl
    rw [compareChars_isLE] at hab hba
    exact Char.toNat_inj.1 (by omega)
  compare_self {a} := by simp [compareChars]

def compareTexts (a b : String) : Ordering :=
  List.compareLex compareChars a.toList b.toList

instance transTexts : Std.TransCmp compareTexts where
  eq_swap {a b} :=
    @Std.OrientedCmp.eq_swap _ (List.compareLex compareChars) _ a.toList b.toList
  isLE_trans {a b c} :=
    @Std.TransCmp.isLE_trans _ (List.compareLex compareChars) _ a.toList b.toList c.toList

instance lawfulTexts : Std.LawfulEqCmp compareTexts where
  eq_of_compare {a b} h :=
    String.toList_inj.1
      (@Std.LawfulEqCmp.eq_of_compare _ (List.compareLex compareChars) _ a.toList b.toList h)
  compare_self {a} := @Std.ReflCmp.compare_self _ (List.compareLex compareChars) _ a.toList

/-- Whether `a` stands before `b`. -/
def isBefore (a b : String) : Bool := compareTexts a b == .lt

theorem isBefore_trans {a b c : String} (hab : isBefore a b) (hbc : isBefore b c) :
    isBefore a c := by
  simp only [isBefore, beq_iff_eq] at *
  exact Std.TransCmp.lt_trans hab hbc

theorem isBefore_irrefl (a : String) : isBefore a a = false := by
  simp [isBefore, Std.ReflCmp.compare_self]

theorem isBefore_or_eq_or_isBefore (a b : String) : isBefore a b ∨ a = b ∨ isBefore b a := by
  simp only [isBefore, beq_iff_eq]
  cases h : compareTexts a b
  · simp
  · exact Or.inr (Or.inl (Std.LawfulEqCmp.eq_of_compare h))
  · rw [@Std.OrientedCmp.eq_swap _ compareTexts, h]; simp

end SavedState.Text
