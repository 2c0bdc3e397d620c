import SavedState.Accessor
import SavedState.FieldType.Basic

/-!
Which accessor pair of a bundle keeps a value of a given type.

A type with an accessor of its own gets that one. Otherwise a subtype of `Parcelable` is kept as
such, then a subtype of `CharSequence`, then whatever is known to be serializable; a type that is
none of these cannot be kept. An array is looked at through its entries, but beyond one dimension
there is only serialization.
-/

namespace SavedState

/-- The text of a type that no accessor keeps. -/
structure Unsupported where
  shown : String
deriving DecidableEq, Repr

def Unsupported.message (e : Unsupported) : String :=
  "type " ++ e.shown ++ " cannot be saved in a bundle; use a primitive, String, CharSequence, " ++
    "Bundle, Parcelable or Serializable type"

abbrev Resolver := FieldType → Except Unsupported Accessor

namespace Resolver

def parcelable : String := "android.os.Parcelable"

def charSequence : String := "java.lang.CharSequence"

def primitives : List String :=
  ["boolean", "byte", "char", "short", "int", "long", "float", "double"]

def scalars : List (String × Accessor) :=
  [("boolean", .boolean), ("byte", .byte), ("char", .char), ("short", .short), ("int", .int),
   ("long", .long), ("float", .float), ("double", .double), ("java.lang.String", .string),
   (charSequence, .charSequence), ("android.os.Bundle", .bundle)]

def arrays : List (String × Accessor) :=
  [("boolean", .booleanArray), ("byte", .byteArray), ("char", .charArray),
   ("short", .shortArray), ("int", .intArray), ("long", .longArray), ("float", .floatArray),
   ("double", .doubleArray), ("java.lang.String", .stringArray),
   (charSequence, .charSequenceArray)]

/-- Array lists by the name of their entries' type. -/
def arrayLists : List (String × Accessor) :=
  [("java.lang.Integer", .integerArrayList), ("java.lang.String", .stringArrayList),
   (charSequence, .charSequenceArrayList)]

/-- Classes that are serializable whatever is said of their supertypes. -/
def serializableClasses : List String :=
  ["java.lang.Boolean", "java.lang.Byte", "java.lang.Character", "java.lang.Short",
   "java.lang.Integer", "java.lang.Long", "java.lang.Float", "java.lang.Double",
   "java.lang.Number", "java.lang.String", "java.math.BigDecimal", "java.math.BigInteger",
   "java.util.ArrayList", "java.util.LinkedList", "java.util.HashMap",
   "java.util.LinkedHashMap", "java.util.TreeMap", "java.util.HashSet",
   "java.util.LinkedHashSet", "java.util.TreeSet", "java.util.Date", "java.util.UUID"]

/-- The accessor that `table` has for the name of a type without arguments. -/
def plain? (table : List (String × Accessor)) (t : FieldType) : Option Accessor :=
  if t.arguments.isEmpty then table.lookup t.name else none

def arrayList? : List FieldType → Option Accessor
  | [entry] =>
    (arrayLists.lookup entry.name).or
      (if entry.isSubtype parcelable then some .parcelableArrayList else none)
  | _ => none

def sparseArray? : List FieldType → Option Accessor
  | [entry] => if entry.isSubtype parcelable then some .sparseParcelableArray else none
  | _ => none

def scalar? (t : FieldType) : Option Accessor :=
  (plain? scalars t).or <|
    if t.name = "java.util.ArrayList" then arrayList? t.arguments
    else if t.name = "android.util.SparseArray" then sparseArray? t.arguments
    else if t.isSubtype parcelable then some .parcelable
    else if t.isSubtype charSequence then some .charSequence
    else none

def array? (entry : FieldType) : Option Accessor :=
  (plain? arrays entry).or <|
    if entry.isSubtype parcelable then some .parcelableArray
    else if entry.isSubtype charSequence then some .charSequenceArray
    else none

/-- The accessor that fits the type itself, serialization aside. -/
def specific? (t : FieldType) : Option Accessor :=
  match t.component? with
  | none => scalar? t
  | some entry => if entry.isArray then none else array? entry

/-- Whether `t` with `dimensions` dimensions in place of its own is serializable. -/
def serializableWith (t : FieldType) : (dimensions : Nat) → Bool
  | 0 =>
    let scalar := { t with dimensions := 0 }
    serializableClasses.contains t.name || scalar.isSubtype "java.io.Serializable" ||
      scalar.isSubtype "java.lang.Enum"
  | n + 1 => primitives.contains t.name || serializableWith t n

def isSerializable (t : FieldType) : Bool := serializableWith t t.dimensions

def accessor? (t : FieldType) : Option Accessor :=
  (specific? t).or (if isSerializable t then some .serializable else none)

/-- The accessors of `android.os.Bundle`. -/
def bundle : Resolver := fun t =>
  match accessor? t with
  | some a => .ok a
  | none => .error ⟨t.render⟩

def constant (a : Accessor) : Resolver := fun _ => .ok a

/-- Refuses the types with one of the given names and leaves the others to `r`. -/
def refusing (names : List String) (r : Resolver) : Resolver := fun t =>
  if names.contains t.name then .error ⟨t.render⟩ else r t

end Resolver

/-- Whether a field of type `t` has to be restored through a cast. -/
def Accessor.castsFor (a : Accessor) (t : FieldType) : Bool :=
  match a with
  | charSequence => t.render != "java.lang.CharSequence"
  | charSequenceArray => t.render != "java.lang.CharSequence[]"
  | _ => a.alwaysCasts

end SavedState
