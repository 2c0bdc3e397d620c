import SavedState.Binary64
import SavedState.Text.Shown

/-!
JSON values, and what a message calls a value that does not fit.
-/

namespace SavedState.Json

inductive Number where
  | integer (value : Int)
  | float (negative : Bool) (magnitude : Binary64)
deriving DecidableEq, Repr

inductive Value where
  | null
  | bool (value : Bool)
  | number (value : Number)
  | string (value : String)
  | array (items : List Value)
  | object (members : List (String × Value))
deriving Inhabited

/-- Why a JSON text or value could not be read. -/
inductive ReadError where
  /-- The text ends too early. -/
  | truncated
  /-- The text is not JSON, or not of the kind that is read. -/
  | malformed
  /-- A value is not what is wanted in its place. -/
  | unfit (message : String)
deriving DecidableEq, Repr

def Number.describe : Number → String
  | integer value => "integer `" ++ toString value ++ "`"
  | float negative magnitude =>
    "floating point `" ++ (if negative then "-" else "") ++ magnitude.render ++ "`"

def describeBool (value : Bool) : String :=
  "boolean `" ++ (if value then "true" else "false") ++ "`"

def describeString (value : String) : String := "string " ++ Text.shown value

def Value.describe : Value → String
  | null => "null"
  | bool value => describeBool value
  | number value => value.describe
  | string value => describeString value
  | array _ => "sequence"
  | object _ => "map"

namespace ReadError

def mismatch (found expected : String) : ReadError :=
  .unfit ("invalid type: " ++ found ++ ", expected " ++ expected)

def missingField (name : String) : ReadError := .unfit ("missing field `" ++ name ++ "`")

def duplicateField (name : String) : ReadError := .unfit ("duplicate field `" ++ name ++ "`")

/-- The words that would do, as a message lists them. -/
def alternatives (names : List String) : String :=
  match names.map fun n => "`" ++ n ++ "`" with
  | [a] => a
  | [a, b] => a ++ " or " ++ b
  | names => "one of " ++ ", ".intercalate names

def unknownField (name : String) (known : List String) : ReadError :=
  .unfit ("unknown field `" ++ name ++ "`, expected " ++ alternatives known)

def unknownVariant (name : String) (known : List String) : ReadError :=
  .unfit ("unknown variant `" ++ name ++ "`, expected " ++ alternatives known)

end ReadError

end SavedState.Json
