import SavedState.DeclaringType

/-!
The names of the helper of a declaring type: that of the artifact as a whole, and that of the
class in it, where nesting is flattened with dollar signs.
-/

namespace SavedState

structure HelperName where
  artifact : String
  className : String
deriving DecidableEq, Repr

def HelperName.of (d : DeclaringType) (suffix : String) : HelperName :=
  ⟨d.qualified ++ suffix, "$".intercalate (Text.segments d.name) ++ suffix⟩

end SavedState
