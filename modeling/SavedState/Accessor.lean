/-!
The accessor pairs of a state bundle: a value saved with `putInt` is restored with `getInt`.
-/

namespace SavedState

inductive Accessor where
  | boolean
  | booleanArray
  | byte
  | byteArray
  | char
  | charArray
  | short
  | shortArray
  | int
  | intArray
  | long
  | longArray
  | float
  | floatArray
  | double
  | doubleArray
  | string
  | stringArray
  | charSequence
  | charSequenceArray
  | bundle
  | parcelable
  | parcelableArray
  | parcelableArrayList
  | sparseParcelableArray
  | integerArrayList
  | stringArrayList
  | charSequenceArrayList
  | serializable
deriving DecidableEq, Repr

namespace Accessor

def all : List Accessor :=
  [.boolean, .booleanArray, .byte, .byteArray, .char, .charArray, .short, .shortArray, .int,
   .intArray, .long, .longArray, .float, .floatArray, .double, .doubleArray, .string,
   .stringArray, .charSequence, .charSequenceArray, .bundle, .parcelable, .parcelableArray,
   .parcelableArrayList, .sparseParcelableArray, .integerArrayList, .stringArrayList,
   .charSequenceArrayList, .serializable]

/-- What the names of the two methods end with. -/
def suffix : Accessor → String
  | boolean => "Boolean"
  | booleanArray => "BooleanArray"
  | byte => "Byte"
  | byteArray => "ByteArray"
  | char => "Char"
  | charArray => "CharArray"
  | short => "Short"
  | shortArray => "ShortArray"
  | int => "Int"
  | intArray => "IntArray"
  | long => "Long"
  | longArray => "LongArray"
  | float => "Float"
  | floatArray => "FloatArray"
  | double => "Double"
  | doubleArray => "DoubleArray"
  | string => "String"
  | stringArray => "StringArray"
  | charSequence => "CharSequence"
  | charSequenceArray => "CharSequenceArray"
  | bundle => "Bundle"
  | parcelable => "Parcelable"
  | parcelableArray => "ParcelableArray"
  | parcelableArrayList => "ParcelableArrayList"
  | sparseParcelableArray => "SparseParcelableArray"
  | integerArrayList => "IntegerArrayList"
  | stringArrayList => "StringArrayList"
  | charSequenceArrayList => "CharSequenceArrayList"
  | serializable => "Serializable"

def ofSuffix? (s : String) : Option Accessor := all.find? fun a => a.suffix == s

def putMethod (a : Accessor) : String := "put" ++ a.suffix

def getMethod (a : Accessor) : String := "get" ++ a.suffix

/-- Whether what the getter gives has to be cast whatever the type of the field is. -/
def alwaysCasts : Accessor → Bool
  | parcelableArray => true
  | serializable => true
  | _ => false

theorem ofSuffix?_suffix (a : Accessor) : ofSuffix? a.suffix = some a := by
  cases a <;> decide +kernel

end Accessor

end SavedState
