/-!
What is wrong with the text of a type.
-/

namespace SavedState

inductive TypeProblem where
  | typeName
  | closingBracket
  | separator
  | trailing (c : Char)
  /-- A word other than `extends` and `super` after a wildcard. -/
  | wildcard (word : String)
deriving DecidableEq, Repr

inductive TypeSyntaxError where
  /-- The name of a declaring type is not made of identifiers with dots between them. -/
  | notDotted (input : String)
  /-- A field's type stops making sense at `offset`, which counts bytes. -/
  | unexpected (input : String) (problem : TypeProblem) (offset : Nat)
deriving DecidableEq, Repr

def TypeProblem.message : TypeProblem → String
  | typeName => "expected a type name"
  | closingBracket => "expected ']'"
  | separator => "expected ',' or '>' in generic arguments"
  | trailing c => "unexpected '" ++ c.toString ++ "' after type"
  | wildcard word => "unexpected '" ++ word ++ "' after wildcard"

def TypeSyntaxError.message : TypeSyntaxError → String
  | notDotted input => "invalid type '" ++ input ++ "': expected dot-separated identifiers"
  | unexpected input problem offset =>
    "invalid type '" ++ input ++ "': " ++ problem.message ++ " at offset " ++ offset.repr

end SavedState
