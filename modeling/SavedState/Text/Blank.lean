import SavedState.Text.Ranges

/-!
The characters with the Unicode property White_Space.
-/

namespace SavedState.Text

def blankRanges : Ranges :=
  [(9, 13), (32, 32), (133, 133), (160, 160), (5760, 5760), (8192, 8202), (8232, 8233),
   (8239, 8239), (8287, 8287), (12288, 12288)]

def isBlank (c : Char) : Bool := blankRanges.has c

/-- The text without the blanks that it starts with. -/
def skipBlanks (s : List Char) : List Char := s.dropWhile isBlank

theorem skipBlanks_length_le (s : List Char) : (skipBlanks s).length ≤ s.length :=
  (List.dropWhile_suffix isBlank).length_le

/-- The text without the blanks at either end. -/
def trim (s : List Char) : List Char := (skipBlanks (skipBlanks s).reverse).reverse

end SavedState.Text
