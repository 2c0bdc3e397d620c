import SavedState.Sink.Basic
import SavedState.Text.Utf8

/-!
The text of a helper: a class with one method that saves every field of the set into a bundle
and one that restores them from it, in the same order and under the same keys.
-/

namespace SavedState.HelperText

def header (d : DeclaringType) (helper : HelperName) : List String :=
  ["// Generated code from Icicle. Do not modify!"] ++
    (if d.package = "" then [] else ["package " ++ d.package ++ ";"]) ++
    ["", "import android.os.Bundle;", "", "public class " ++ helper.className ++ " \x7b", ""]

def saveLine (r : FieldRecord) : String :=
  "    outState." ++ r.accessor.putMethod ++ "(\"" ++ r.key ++ "\", source." ++ r.name ++ ");"

def saveMethod (d : DeclaringType) (fields : FieldSet) : List String :=
  ["  public static void saveInstanceState(" ++ d.name ++ " source, Bundle outState) \x7b"] ++
    fields.toList.map saveLine ++ ["  \x7d"]

/-- The cast in front of a getter, where one is needed. -/
def cast (r : FieldRecord) : String :=
  if r.accessor.castsFor r.type then "(" ++ r.type.render ++ ") " else ""

def restoreLine (r : FieldRecord) : String :=
  "    target." ++ r.name ++ " = " ++ cast r ++ "savedInstanceState." ++ r.accessor.getMethod ++
    "(\"" ++ r.key ++ "\");"

def restoreMethod (d : DeclaringType) (fields : FieldSet) : List String :=
  ["  public static void restoreInstanceState(" ++ d.name ++
      " target, Bundle savedInstanceState) \x7b",
    "    if (savedInstanceState == null) \x7b", "      return;", "    \x7d"] ++
    fields.toList.map restoreLine ++ ["  \x7d"]

def lines (d : DeclaringType) (helper : HelperName) (fields : FieldSet) : List String :=
  header d helper ++ saveMethod d fields ++ [""] ++ restoreMethod d fields ++ ["\x7d"]

def text (d : DeclaringType) (helper : HelperName) (fields : FieldSet) : String :=
  String.join ((lines d helper fields).map (· ++ "\n"))

/-- Writes the text line by line. -/
def emitter : Emitter := fun d helper fields _ channel =>
  (lines d helper fields).forM fun line => channel.write (Text.bytes (line ++ "\n"))

end SavedState.HelperText
