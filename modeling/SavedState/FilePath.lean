import SavedState.Text.Segments

/-!
Paths as texts, with slashes between the names. A slash after another, a slash at the end, and a
single dot anywhere but at the start stand for nothing.
-/

namespace SavedState.FilePath

def isAbsolute (path : String) : Bool := path.toList.head? == some '/'

/-- The texts between the slashes. -/
def parts (path : String) : List String := (Text.parts '/' path.toList).map String.ofList

/-- What is left of a reversed path without the slashes and dots in front that stand for
nothing. -/
def settle : List Char → List Char
  | '/' :: r => settle r
  | '.' :: '/' :: r => settle r
  | r => r

theorem settle_length_le (r : List Char) : (settle r).length ≤ r.length := by
  fun_induction settle r <;> grind

/-- The path of the directory that the last name of a path stands in. Nothing but slashes has
none. -/
def parent? (path : String) : Option String :=
  let s := settle path.toList.reverse
  if s.isEmpty then none
  else
    match s.dropWhile (· ≠ '/') with
    | [] => some ""
    | r =>
      match settle r with
      | [] => some "/"
      | r => some (String.ofList r.reverse)

/-- The last name of a path, unless the path ends in dots. -/
def fileName? (path : String) : Option String :=
  let name := String.ofList ((settle path.toList.reverse).takeWhile (· ≠ '/')).reverse
  if name = "" ∨ name = "." ∨ name = ".." then none else some name

/-- A path cut before its last name, where slashes after the name do not count. Nothing but
slashes is all in front of a name that is empty. -/
def cutLast (path : String) : String × String :=
  match path.toList.reverse.dropWhile (· = '/') with
  | [] => (path, "")
  | s =>
    (String.ofList (s.dropWhile (· ≠ '/')).reverse, String.ofList (s.takeWhile (· ≠ '/')).reverse)

/-- The names of a path. A slash or a dot at the start counts as one. -/
def components (path : String) : List String :=
  let ps := parts path
  let start := if isAbsolute path then ["/"] else if ps.head? = some "." then ["."] else []
  start ++ ps.filter fun p => p ≠ "" ∧ p ≠ "."

/-- Whether two paths have the same names. -/
def same (p q : String) : Bool := components p == components q

/-- A path below another one. An absolute path stays what it is. -/
def join (path below : String) : String :=
  if isAbsolute below then below
  else if path = "" ∨ path.toList.getLast? = some '/' then path ++ below
  else path ++ "/" ++ below

theorem head_settle_ne {r s : List Char} {c : Char} (h : settle r = c :: s) : c ≠ '/' := by
  fun_induction settle r with
  | case1 r ih => exact ih h
  | case2 r ih => exact ih h
  | case3 r hs => exact fun hc => hs s (hc ▸ h)

/-- The path above a path is shorter. -/
theorem length_lt_of_parent? {path up : String} (h : parent? path = some up) :
    up.length < path.length := by
  simp only [parent?] at h
  have hs := settle_length_le path.toList.reverse
  have hc := @head_settle_ne path.toList.reverse
  generalize settle path.toList.reverse = s at h hs hc
  simp only [List.length_reverse, String.length_toList] at hs
  cases s with
  | nil => simp at h
  | cons c s =>
    have hd : (c :: s).dropWhile (fun c => decide (c ≠ '/')) =
        s.dropWhile (fun c => decide (c ≠ '/')) := by
      simp [hc rfl]
    have hl := (List.dropWhile_suffix (fun c => decide (c ≠ '/')) (l := s)).length_le
    simp only [List.isEmpty_cons, Bool.false_eq_true, if_false, hd] at h
    generalize s.dropWhile (fun c => decide (c ≠ '/')) = r at h hl
    simp only [List.length_cons] at hs
    have hr := settle_length_le r
    split at h
    · cases h; simp; omega
    · rename_i hne
      have : r ≠ [] := fun e => hne e
      have := List.length_pos_iff.2 this
      split at h
      · cases h; simp [show "/".length = 1 from rfl]; omega
      · cases h; simp; omega

/-- The directories above a path, the nearest one first. -/
def above (path : String) : List String :=
  match h : parent? path with
  | none => []
  | some p =>
    have := length_lt_of_parent? h
    p :: above p
termination_by path.length

end SavedState.FilePath
