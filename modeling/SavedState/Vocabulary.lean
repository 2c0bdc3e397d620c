/-!
Closed lists of words with a meaning each, such as the modifiers of a field or the severities of
a diagnostic.
-/

namespace SavedState

structure Vocabulary (α : Type) where
  /-- What the words are called in the message about a word that is none of them. -/
  noun : String
  entries : List (String × α)
  /-- What the message ends with. -/
  hint : String

namespace Vocabulary

variable {α : Type}

def words (v : Vocabulary α) : List String := v.entries.map (·.1)

def read? (v : Vocabulary α) (word : String) : Option α := v.entries.lookup word

def complaint (v : Vocabulary α) (word : String) : String :=
  "unknown " ++ v.noun ++ " '" ++ word ++ "'" ++ v.hint

end Vocabulary

end SavedState
