import SavedState.DeclaringType
import SavedState.FieldType.Basic
import SavedState.Modifier

/-!
Candidate fields as a host tool describes them, and the rounds that they come in.
-/

namespace SavedState

structure Element where
  enclosing : DeclaringType
  name : String
  type : FieldType
  modifiers : Modifiers
deriving DecidableEq

structure Round where
  elements : List Element
  isFinal : Bool
deriving DecidableEq

end SavedState
