import SavedState.Text.Hex
import SavedState.Text.Printable

/-!
Texts in double quotes as a message shows them: a character that would not be seen as itself is
written as an escape.
-/

namespace SavedState.Text

def showChar (c : Char) : List Char :=
  if c = '\x00' then ['\\', '0']
  else if c = '\t' then ['\\', 't']
  else if c = '\r' then ['\\', 'r']
  else if c = '\n' then ['\\', 'n']
  else if c = '\x22' ∨ c = '\\' then ['\\', c]
  else if isPrintable c then [c]
  else '\\' :: 'u' :: '\x7b' :: toHex c.toNat ++ ['\x7d']

def shown (s : String) : String := "\"" ++ String.ofList (s.toList.flatMap showChar) ++ "\""

end SavedState.Text
