import SavedState.Text.Alphabetic
import SavedState.Text.Blank
import SavedState.Text.Numeric

/-!
Identifiers: a letter, `_` or `$`, then any number of letters, digits, `_` and `$`, where letters
and digits are those of Unicode.
-/

namespace SavedState

def isIdentifierStart (c : Char) : Bool := Text.isAlphabetic c || c == '_' || c == '$'

def isIdentifierPart (c : Char) : Bool :=
  Text.isAlphabetic c || Text.isNumeric c || c == '_' || c == '$'

def isIdentifier : List Char → Bool
  | [] => false
  | c :: s => isIdentifierStart c && s.all isIdentifierPart

theorem isIdentifierPart_of_start {c : Char} (h : isIdentifierStart c = true) :
    isIdentifierPart c = true := by
  simp only [isIdentifierStart, isIdentifierPart, Bool.or_eq_true] at *
  grind

theorem all_part_of_isIdentifier {s : List Char} (h : isIdentifier s = true) :
    s.all isIdentifierPart = true := by
  cases s with
  | nil => rfl
  | cons c s =>
    simp only [isIdentifier, Bool.and_eq_true] at h
    simp only [List.all_cons, Bool.and_eq_true]
    exact ⟨isIdentifierPart_of_start h.1, h.2⟩

theorem isIdentifierPart_dot : isIdentifierPart '.' = false := by decide

theorem dot_not_mem_of_isIdentifier {s : List Char} (h : isIdentifier s = true) : '.' ∉ s := by
  intro hd
  have := List.all_eq_true.1 (all_part_of_isIdentifier h) _ hd
  simp [isIdentifierPart_dot] at this

end SavedState
