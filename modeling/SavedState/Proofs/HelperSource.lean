import Mathlib.Tactic.Common
import SavedState.Proofs.Templates
import SavedState.Resolver

/-!
Reading the text of a helper back.

The reader knows the lines of a helper as fixed words with holes between them, and gives what it
finds in the holes: where the helper belongs, and the statements of its two methods. It knows
nothing of the fields that a helper was written for.
-/

namespace SavedState.HelperText

/-! ### Statements -/

/-- `outState.put<accessor>("<key>", source.<field>)` -/
structure Save where
  accessor : Accessor
  key : String
  field : String
deriving DecidableEq, Repr

/-- `target.<field> = (<cast>) savedInstanceState.get<accessor>("<key>")` -/
structure Restore where
  field : String
  cast : Option String
  accessor : Accessor
  key : String
deriving DecidableEq, Repr

def saveTemplate : Text.Template := ⟨"    outState.put", ["(\"", "\", source.", ");"]⟩

def castTemplate : Text.Template :=
  ⟨"    target.", [" = (", ") savedInstanceState.get", "(\"", "\");"]⟩

def plainTemplate : Text.Template :=
  ⟨"    target.", [" = savedInstanceState.get", "(\"", "\");"]⟩

def readSave (line : String) : Option Save :=
  match saveTemplate.read? line with
  | some [suffix, key, field] => (Accessor.ofSuffix? suffix).map fun a => ⟨a, key, field⟩
  | _ => none

def readRestore (line : String) : Option Restore :=
  match castTemplate.read? line, plainTemplate.read? line with
  | some [field, cast, suffix, key], _ =>
    (Accessor.ofSuffix? suffix).map fun a => ⟨field, some cast, a, key⟩
  | none, some [field, suffix, key] =>
    (Accessor.ofSuffix? suffix).map fun a => ⟨field, none, a, key⟩
  | _, _ => none

/-! ### Lines -/

/-- Takes lines off the front of a text. -/
abbrev LineReader := StateT (List String) Option

namespace LineReader

variable {α β : Type}

def next : LineReader String
  | [] => none
  | line :: ls => some (line, ls)

def expect (line : String) : LineReader Unit := do
  guard ((← next) = line)

/-- The hole of a line that has one. -/
def hole (t : Text.Template) : LineReader String := do
  match t.read? (← next) with
  | some [s] => return s
  | _ => failure

/-- The statements of a method, up to its closing brace. -/
def block (read : String → Option α) : LineReader (List α)
  | [] => none
  | line :: ls =>
    if line = "  \x7d" then some ([], ls)
    else do
      let a ← read line
      let (as, rest) ← block read ls
      return (a :: as, rest)

/-- `x` takes the lines `l` for `a`, whatever lines follow. -/
def Reads (x : LineReader α) (l : List String) (a : α) : Prop :=
  ∀ rest, x.run (l ++ rest) = some (a, rest)

variable {x : LineReader α} {f : α → LineReader β} {a : α} {b : β} {l l' : List String}
  {line : String}

lemma Reads.bind (hx : Reads x l a) (hf : Reads (f a) l' b) : Reads (x >>= f) (l ++ l') b := by
  intro rest
  rw [StateT.run_bind, List.append_assoc, hx]
  exact hf rest

lemma Reads.cons (hx : Reads x [line] a) (hf : Reads (f a) l b) :
    Reads (x >>= f) (line :: l) b := hx.bind hf

lemma reads_pure (a : α) : Reads (pure a) [] a := fun _ => rfl

lemma reads_next (line : String) : Reads next [line] line := fun _ => rfl

lemma reads_guard {p : Prop} [Decidable p] (h : p) : Reads (guard p) [] () := by
  intro rest
  rw [guard, if_pos h]
  rfl

lemma reads_expect (line : String) : Reads (expect line) [line] () :=
  (reads_next line).cons (reads_guard rfl)

lemma reads_hole {start w s : String} (h : Text.Template.Ends w s) :
    Reads (hole ⟨start, [w]⟩) [start ++ (s ++ w)] s := by
  have hfill : (⟨start, [w]⟩ : Text.Template).fill [s] = start ++ (s ++ w) := by
    simp [Text.Template.fill, Text.Template.fillHoles]
  refine (reads_next _).cons ?_
  rw [← hfill, Text.Template.read?_fill (.cons h .nil)]
  exact reads_pure s

/-- Statements that are read one by one are read as a block. -/
lemma reads_block {γ : Type} {read : String → Option β} {write : γ → String} {f : γ → β}
    {l : List γ} (h : ∀ r ∈ l, read (write r) = some (f r)) (hclose : read "  \x7d" = none) :
    Reads (block read) (l.map write ++ ["  \x7d"]) (l.map f) := by
  intro rest
  induction l with
  | nil => rfl
  | cons r l ih =>
    rw [List.forall_mem_cons] at h
    have hne : write r ≠ "  \x7d" := by
      intro he
      rw [he, hclose] at h
      cases h.1
    have hrest : block read (l.map write ++ ["  \x7d"] ++ rest) = some (l.map f, rest) := ih h.2
    change block read (write r :: (l.map write ++ ["  \x7d"] ++ rest)) = _
    rw [block, if_neg hne, h.1, hrest]
    rfl

end LineReader

open LineReader

/-! ### Helpers -/

/-- What a helper's text says. -/
structure Content where
  package : String
  className : String
  target : String
  saves : List Save
  restores : List Restore
deriving DecidableEq, Repr

/-- The package clause, if there is one, with the empty line after it. -/
def readPackage : LineReader String := do
  let line ← next
  if line = "" then return ""
  else
    match Text.Template.read? ⟨"package ", [";"]⟩ line with
    | some [package] =>
      expect ""
      return package
    | _ => failure

/-- The package and the name of the class. -/
def readHeader : LineReader (String × String) := do
  expect "// Generated code from Icicle. Do not modify!"
  let package ← readPackage
  expect "import android.os.Bundle;"
  expect ""
  let className ← hole ⟨"public class ", [" \x7b"]⟩
  expect ""
  return (package, className)

/-- The type whose fields are saved, and how. -/
def readSaveMethod : LineReader (String × List Save) := do
  let target ← hole ⟨"  public static void saveInstanceState(", [" source, Bundle outState) \x7b"]⟩
  let saves ← block readSave
  return (target, saves)

/-- The type whose fields are restored, and how. -/
def readRestoreMethod : LineReader (String × List Restore) := do
  let target ← hole
    ⟨"  public static void restoreInstanceState(", [" target, Bundle savedInstanceState) \x7b"]⟩
  expect "    if (savedInstanceState == null) \x7b"
  expect "      return;"
  expect "    \x7d"
  let restores ← block readRestore
  return (target, restores)

def readContent : LineReader Content := do
  let (package, className) ← readHeader
  let (target, saves) ← readSaveMethod
  expect ""
  let (target', restores) ← readRestoreMethod
  expect "\x7d"
  guard (target' = target)
  return ⟨package, className, target, saves, restores⟩

/-- What the bytes of a helper say, if they are those of one. -/
def read? (b : List UInt8) : Option Content := do
  let text ← Text.ofBytes? b
  let (content, rest) ← readContent.run (Text.lines text)
  guard (rest = [""])
  return content

/-! ### Running the statements -/

/-- Values under keys, each with the accessor that it was put with. -/
abbrev Bundle (V : Type) := String → Option (Accessor × V)

section

variable {V : Type}

def Save.run (object : String → V) (b : Bundle V) (s : Save) : Bundle V :=
  fun key => if key = s.key then some (s.accessor, object s.field) else b key

/-- What a getter gives: a value that was put with its own pair, else what `missing` has. -/
def Bundle.get (missing : Accessor → V) (b : Bundle V) (a : Accessor) (key : String) : V :=
  match b key with
  | some (put, v) => if put = a then v else missing a
  | none => missing a

/-- A cast does not change the value. -/
def Restore.run (missing : Accessor → V) (b : Bundle V) (object : String → V) (r : Restore) :
    String → V :=
  fun field => if field = r.field then b.get missing r.accessor r.key else object field

/-- The bundle that the saving method leaves behind. -/
def Content.save (c : Content) (object : String → V) : Bundle V :=
  c.saves.foldl (Save.run object) fun _ => none

/-- The object that the restoring method leaves behind. -/
def Content.restore (c : Content) (missing : Accessor → V) (b : Bundle V) (object : String → V) :
    String → V :=
  c.restores.foldl (Restore.run missing b) object

lemma foldl_save_of_not_mem (object : String → V) {saves : List Save} {key : String}
    (h : key ∉ saves.map Save.key) (b : Bundle V) :
    saves.foldl (Save.run object) b key = b key := by
  induction saves generalizing b with
  | nil => rfl
  | cons s saves ih =>
    rw [List.map_cons, List.mem_cons, not_or] at h
    rw [List.foldl_cons, ih h.2]
    exact if_neg h.1

/-- What is saved under a key of its own is in the bundle. -/
lemma foldl_save (object : String → V) {saves : List Save} (h : (saves.map Save.key).Nodup)
    {s : Save} (hs : s ∈ saves) (b : Bundle V) :
    saves.foldl (Save.run object) b s.key = some (s.accessor, object s.field) := by
  induction saves generalizing b with
  | nil => exact absurd hs List.not_mem_nil
  | cons first saves ih =>
    rw [List.map_cons, List.nodup_cons] at h
    rw [List.foldl_cons]
    rcases List.mem_cons.1 hs with rfl | hs
    · rw [foldl_save_of_not_mem object h.1]
      exact if_pos rfl
    · exact ih h.2 hs _

/-- Statements that each restore what `value` has for their field change no other field. -/
lemma foldl_restore (missing : Accessor → V) (b : Bundle V) (value : String → V)
    {restores : List Restore}
    (h : ∀ r ∈ restores, b.get missing r.accessor r.key = value r.field) (object : String → V) :
    restores.foldl (Restore.run missing b) object =
      fun field => if field ∈ restores.map Restore.field then value field else object field := by
  induction restores generalizing object with
  | nil => simp
  | cons r restores ih =>
    rw [List.forall_mem_cons] at h
    rw [List.foldl_cons, ih h.2]
    funext field
    unfold Restore.run
    by_cases hr : field = r.field
    · subst hr
      simp [h.1]
    · simp [hr]

end

end SavedState.HelperText
