import SavedState.FieldType.Basic
import SavedState.Identifier
import SavedState.Text.Segments
import SavedState.Text.Utf8
import SavedState.TypeSyntax

/-!
Reading the text of a field's type, such as `java.util.ArrayList<Item>[]`.

A type is a name, arguments in angle brackets if it has any, and a pair of square brackets for
each dimension; blanks may stand before every token but the first. A wildcard is erased: one
with an upper bound stands for the bound, any other for `java.lang.Object`. Each step of the
reader gives what it read together with the rest of the text, which is shorter.
-/

namespace SavedState.FieldType

/-- What is left of `s` after reading something that is not empty. -/
abbrev Rest (s : List Char) := { r : List Char // r.length < s.length }

/-- Why reading stopped, and the text that it stopped before. -/
structure Stop where
  problem : TypeProblem
  rest : List Char
deriving DecidableEq, Repr

def isNameChar (c : Char) : Bool := isIdentifierPart c || c == '.'

def isName (s : List Char) : Bool := (Text.parts '.' s).all isIdentifier

theorem dropWhile_lt_of_isName {s : List Char} (h : isName (s.takeWhile isNameChar) = true) :
    (s.dropWhile isNameChar).length < s.length := by
  have hne : s.takeWhile isNameChar ≠ [] := by
    intro he
    simp [he, isName, isIdentifier] at h
  have := congrArg List.length (List.takeWhile_append_dropWhile (p := isNameChar) (l := s))
  have := List.length_pos_iff.2 hne
  simp only [List.length_append] at *
  omega

def readName (s : List Char) : Except Stop (String × Rest s) :=
  if h : isName (s.takeWhile isNameChar) = true then
    .ok (String.ofList (s.takeWhile isNameChar),
      ⟨s.dropWhile isNameChar, dropWhile_lt_of_isName h⟩)
  else .error ⟨.typeName, s.dropWhile isNameChar⟩

/-- What follows `c`, if `c` comes next after any blanks. -/
def eat? (c : Char) (s : List Char) : Option (Rest s) :=
  match h : Text.skipBlanks s with
  | [] => none
  | d :: r =>
    if d = c then
      some ⟨r, by have := Text.skipBlanks_length_le s; simp [h] at this; omega⟩
    else none

def readDimensions (s : List Char) :
    Except Stop (Nat × { r : List Char // r.length ≤ s.length }) :=
  match eat? '[' s with
  | none => .ok (0, ⟨Text.skipBlanks s, Text.skipBlanks_length_le s⟩)
  | some ⟨r, hr⟩ =>
    match eat? ']' r with
    | none => .error ⟨.closingBracket, Text.skipBlanks r⟩
    | some ⟨q, hq⟩ => do
      let (n, ⟨p, hp⟩) ← readDimensions q
      return (n + 1, ⟨p, by omega⟩)
termination_by s.length

/-- The bound that a wildcard's text goes on with, if it does: a word and then a type. -/
def startsBound (s : List Char) : Bool :=
  match s with
  | [] => false
  | c :: _ => Text.isAlphabetic c

/-- The type that a wildcard with a bound stands for. -/
def erase (word : String) (bound : FieldType) : Option FieldType :=
  if word = "extends" then some bound
  else if word = "super" then some (named "java.lang.Object")
  else none

mutual

def readType (s : List Char) : Except Stop (FieldType × Rest s) := do
  let (name, ⟨r, hr⟩) ← readName s
  let (arguments, ⟨q, hq⟩) ← readArguments r
  let (dimensions, ⟨p, hp⟩) ← readDimensions q
  return (⟨name, arguments, dimensions, .empty⟩, ⟨p, by omega⟩)
termination_by 3 * s.length + 0

def readArguments (s : List Char) :
    Except Stop (List FieldType × { r : List Char // r.length ≤ s.length }) :=
  match eat? '<' s with
  | none => .ok ([], ⟨s, Nat.le_refl _⟩)
  | some ⟨r, hr⟩ => do
    let (arguments, ⟨q, hq⟩) ← readArgumentList r
    return (arguments, ⟨q, by omega⟩)
termination_by 3 * s.length + 0

/-- The arguments that follow an opening bracket or a comma, to the closing bracket. -/
def readArgumentList (s : List Char) : Except Stop (List FieldType × Rest s) := do
  have hs := Text.skipBlanks_length_le s
  let (argument, ⟨r, hr⟩) ← readArgument (Text.skipBlanks s)
  match eat? ',' r with
  | some ⟨q, hq⟩ => do
    let (arguments, ⟨p, hp⟩) ← readArgumentList q
    return (argument :: arguments, ⟨p, by omega⟩)
  | none =>
    match eat? '>' r with
    | some ⟨q, hq⟩ => .ok ([argument], ⟨q, by omega⟩)
    | none => .error ⟨.separator, Text.skipBlanks r⟩
termination_by 3 * s.length + 2

def readArgument (s : List Char) : Except Stop (FieldType × Rest s) :=
  match eat? '?' s with
  | none => readType s
  | some ⟨r, hr⟩ => do
    have hr' := Text.skipBlanks_length_le r
    if startsBound (Text.skipBlanks r) then
      let (word, ⟨q, hq⟩) ← readName (Text.skipBlanks r)
      have hq' := Text.skipBlanks_length_le q
      let (bound, ⟨p, hp⟩) ← readType (Text.skipBlanks q)
      match erase word bound with
      | some t => .ok (t, ⟨p, by omega⟩)
      | none => .error ⟨.wildcard word, p⟩
    else .ok (named "java.lang.Object", ⟨Text.skipBlanks r, by omega⟩)
termination_by 3 * s.length + 1

end

/-- How many bytes of `s` stand before its end `rest`. -/
def offset (s rest : List Char) : Nat := Text.byteLength s - Text.byteLength rest

def read (s : String) : Except TypeSyntaxError FieldType :=
  match readType s.toList with
  | .ok (t, ⟨[], _⟩) => .ok t
  | .ok (_, ⟨c :: r, _⟩) => .error (.unexpected s (.trailing c) (offset s.toList r))
  | .error stop => .error (.unexpected s stop.problem (offset s.toList stop.rest))

end SavedState.FieldType
