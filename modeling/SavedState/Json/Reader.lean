import SavedState.Json.Value
import SavedState.Text.Reader

/-!
Reading JSON text: blanks, single characters and words between them, and whole texts.
-/

namespace SavedState.Json

abbrev Reader := Text.Reader ReadError

def isBlank (c : Char) : Bool := c == ' ' || c == '\n' || c == '\t' || c == '\r'

def skipBlanks (s : List Char) : List Char := s.dropWhile isBlank

/-- Skips blanks and looks at the character that comes next. -/
def peek : Reader (Option Char) := fun s =>
  .ok ((skipBlanks s).head?, ⟨skipBlanks s, List.dropWhile_suffix isBlank⟩)

/-- What is wrong with a text that goes on with `c` where it must not. -/
def unexpected : Option Char → ReadError
  | none => .truncated
  | some _ => .malformed

/-- Takes `c`, which must be the next character after any blanks. -/
def expect (c : Char) : Reader Unit := do
  let d ← peek
  if d = some c then Text.Reader.drop else .fail (unexpected d)

/-- Takes the given characters. -/
def literal : List Char → Reader Unit
  | [] => pure ()
  | c :: cs => do
    let d ← Text.Reader.head
    if d = some c then
      Text.Reader.drop
      literal cs
    else .fail (unexpected d)

/-- Reads a whole text: nothing but blanks may follow. -/
def readText {α : Type} (x : Reader α) (text : String) : Except ReadError α :=
  match x text.toList with
  | .error e => .error e
  | .ok (a, ⟨r, _⟩) => if (skipBlanks r).isEmpty then .ok a else .error .malformed

end SavedState.Json
