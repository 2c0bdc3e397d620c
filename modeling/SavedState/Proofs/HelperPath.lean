import Mathlib.Data.List.Basic
import Mathlib.Data.List.Induction
import Mathlib.Tactic.Common
import SavedState.Proofs.ProperTypes
import SavedState.Sink.Directory

/-!
Paths that are made of plain names, and the paths of helpers among them.

A plain name stands for itself in a path. What is joined from plain names with slashes between
them is taken apart into the same names again, whichever way it is done.
-/

namespace SavedState

namespace Text

lemma not_mem_intercalate {c : Char} {sep : String} {l : List String} (hsep : c ∉ sep.toList)
    (h : ∀ s ∈ l, c ∉ s.toList) : c ∉ (sep.intercalate l).toList := by
  induction l with
  | nil => simp
  | cons s l ih =>
    have hs := h s List.mem_cons_self
    have hl := ih fun x hx => h x (List.mem_cons_of_mem _ hx)
    by_cases hne : l = []
    · simp [hne, hs]
    · rw [String.intercalate_cons_of_ne_nil hne, String.toList_append, String.toList_append,
        List.mem_append, List.mem_append]
      exact not_or.2 ⟨not_or.2 ⟨hs, hsep⟩, hl⟩

lemma mem_intercalate {c : Char} {s sep : String} {l : List String} (hs : s ∈ l)
    (hc : c ∈ s.toList) : c ∈ (sep.intercalate l).toList := by
  induction l with
  | nil => exact absurd hs List.not_mem_nil
  | cons x l ih =>
    by_cases hne : l = []
    · rw [hne, List.mem_singleton] at hs
      rw [hne, String.intercalate_singleton, ← hs]
      exact hc
    · rw [String.intercalate_cons_of_ne_nil hne, String.toList_append, String.toList_append,
        List.mem_append, List.mem_append]
      rcases List.mem_cons.1 hs with rfl | hs
      · exact Or.inl (Or.inl hc)
      · exact Or.inr (ih hs)

end Text

namespace FilePath

/-- A name that stands for itself in a path. -/
structure IsPlain (s : String) : Prop where
  ne_empty : s ≠ ""
  ne_dot : s ≠ "."
  ne_dots : s ≠ ".."
  slash_not_mem : '/' ∉ s.toList

/-- The path that leads through some names. -/
def through (names : List String) : String := "/".intercalate names

/-- What stands before a name in the path through others and it. -/
def before (names : List String) : String := if names = [] then "" else through names ++ "/"

variable {names : List String} {s x : String}

@[simp] lemma through_nil : through [] = "" := rfl

@[simp] lemma through_singleton (x : String) : through [x] = x := String.intercalate_singleton

lemma through_concat (names : List String) (x : String) :
    through (names ++ [x]) = before names ++ x := by
  unfold before
  by_cases h : names = []
  · simp [h]
  · rw [if_neg h, through, String.intercalate_append_of_ne_nil h (List.cons_ne_nil x [])]
    simp [through]

/-- A path goes on where it is led through one more name. -/
lemma through_prefix (names : List String) (x : String) :
    (through names).toList <+: (through (names ++ [x])).toList := by
  rw [through_concat, before, String.toList_append]
  split
  · rename_i hnil
    simp [hnil]
  · rw [String.toList_append, List.append_assoc]
    exact List.prefix_append _ _

/-! ### Ends of paths -/

lemma IsPlain.toList_ne_nil (h : IsPlain s) : s.toList ≠ [] := by
  rw [ne_eq, String.toList_eq_nil_iff]
  exact h.ne_empty

lemma IsPlain.head?_ne (h : IsPlain s) (r : List Char) : (s.toList ++ r).head? ≠ some '/' := by
  rw [List.head?_append_of_ne_nil _ h.toList_ne_nil]
  exact fun hs => h.slash_not_mem (List.mem_of_mem_head? hs)

lemma IsPlain.getLast?_ne (h : IsPlain s) (r : List Char) :
    (r ++ s.toList).getLast? ≠ some '/' := by
  rw [List.getLast?_append_of_ne_nil _ h.toList_ne_nil]
  exact fun hs => h.slash_not_mem (List.mem_of_getLast? hs)

lemma through_eq_empty (h : ∀ s ∈ names, IsPlain s) : through names = "" ↔ names = [] := by
  constructor
  · rcases List.eq_nil_or_concat names with rfl | ⟨front, x, rfl⟩
    · exact fun _ => rfl
    · intro he
      rw [List.concat_eq_append, through_concat, String.append_eq_empty_iff] at he
      exact absurd he.2 (h x (by simp)).ne_empty
  · rintro rfl
    rfl

/-- A path through plain names starts where it is followed from. -/
lemma isAbsolute_through (h : ∀ s ∈ names, IsPlain s) : isAbsolute (through names) = false := by
  unfold isAbsolute
  rw [beq_eq_false_iff_ne]
  cases names with
  | nil => simp
  | cons s names =>
    have hs := h s List.mem_cons_self
    cases names with
    | nil =>
      rw [through_singleton, ← List.append_nil s.toList]
      exact hs.head?_ne []
    | cons x names =>
      rw [through, String.intercalate_cons_cons, String.append_assoc, String.toList_append]
      exact hs.head?_ne _

lemma isAbsolute_before (h : ∀ s ∈ names, IsPlain s) : isAbsolute (before names) = false := by
  unfold before
  by_cases hne : names = []
  · simp [hne, isAbsolute]
  · have hthrough : (through names).toList ≠ [] := by
      rw [ne_eq, String.toList_eq_nil_iff, through_eq_empty h]
      exact hne
    have habs := isAbsolute_through h
    unfold isAbsolute at habs ⊢
    rw [if_neg hne, String.toList_append, List.head?_append_of_ne_nil _ hthrough]
    exact habs

lemma join_through (h : ∀ s ∈ names, IsPlain s) (hx : IsPlain x) :
    join (through names) x = through (names ++ [x]) := by
  have habs : isAbsolute x = false := by
    rw [← through_singleton x]
    exact isAbsolute_through fun s hs => List.mem_singleton.1 hs ▸ hx
  have hslash : (through names).toList.getLast? ≠ some '/' := by
    rcases List.eq_nil_or_concat names with rfl | ⟨front, y, rfl⟩
    · simp
    · rw [List.concat_eq_append, through_concat, String.toList_append]
      exact (h y (by simp)).getLast?_ne _
  unfold join
  rw [habs, if_neg Bool.false_ne_true, through_concat, before]
  by_cases hnil : names = []
  · rw [if_pos (Or.inl ((through_eq_empty h).2 hnil)), if_pos hnil, hnil, through_nil]
  · have hne : ¬(through names = "" ∨ (through names).toList.getLast? = some '/') :=
      not_or.2 ⟨mt (through_eq_empty h).1 hnil, hslash⟩
    rw [if_neg hne, if_neg hnil]

/-- Joining plain names one by one leads through all of them. -/
lemma foldl_join_through (h : ∀ s ∈ names, IsPlain s) : names.foldl join "" = through names := by
  induction names using List.reverseRecOn with
  | nil => rfl
  | append_singleton names x ih =>
    have hnames : ∀ s ∈ names, IsPlain s := fun s hs => h s (List.mem_append_left _ hs)
    have hx : IsPlain x := h x (by simp)
    rw [List.foldl_append, ih hnames, List.foldl_cons, List.foldl_nil, join_through hnames hx]

/-! ### Names of paths -/

lemma parts_through (hne : names ≠ []) (h : ∀ s ∈ names, '/' ∉ s.toList) :
    parts (through names) = names := by
  have : String.ofList ∘ String.toList = id := by funext; simp
  have hp := @Text.parts_join '/' (names.map String.toList) (by simpa) (by simpa using h)
  unfold parts through
  rw [String.toList_intercalate, show "/".toList = ['/'] from rfl, hp]
  simp [this]

/-- Before the last name there are the others, and a name that is empty. -/
lemma parts_before (h : ∀ s ∈ names, '/' ∉ s.toList) : parts (before names) = names ++ [""] := by
  unfold before
  by_cases hne : names = []
  · simp [hne, parts]
  · have hsplit : parts (through (names ++ [""])) = names ++ [""] := by
      refine parts_through (by simp) fun s hs => ?_
      rcases List.mem_append.1 hs with hs | hs
      · exact h s hs
      · rw [List.mem_singleton.1 hs]
        simp
    rw [through_concat, before, if_neg hne, String.append_empty] at hsplit
    rw [if_neg hne, hsplit]

lemma components_through (h : ∀ s ∈ names, IsPlain s) : components (through names) = names := by
  have habs := isAbsolute_through h
  unfold components
  dsimp only
  rw [habs, if_neg Bool.false_ne_true]
  by_cases hne : names = []
  · subst hne
    rfl
  · rw [parts_through hne fun s hs => (h s hs).slash_not_mem, if_neg, List.nil_append,
      List.filter_eq_self]
    · intro s hs
      simp [(h s hs).ne_empty, (h s hs).ne_dot]
    · exact fun hd => (h _ (List.mem_of_mem_head? hd)).ne_dot rfl

lemma same_through {names' : List String} (h : ∀ s ∈ names, IsPlain s)
    (h' : ∀ s ∈ names', IsPlain s) :
    same (through names) (through names') = true ↔ names = names' := by
  rw [same, components_through h, components_through h', beq_iff_eq]

/-! ### The last name and the way to it -/

/-- What is before a name ends with a slash, if it is anything. -/
lemma toList_before (names : List String) :
    (before names).toList.reverse =
      if names = [] then [] else '/' :: (through names).toList.reverse := by
  unfold before
  by_cases h : names = []
  · simp [h]
  · simp [h]

lemma takeWhile_reverse (hx : IsPlain x) (names : List String) :
    ((through (names ++ [x])).toList.reverse).takeWhile (· ≠ '/') = x.toList.reverse ∧
      ((through (names ++ [x])).toList.reverse).dropWhile (· ≠ '/') =
        (before names).toList.reverse := by
  have hall : ∀ c ∈ x.toList.reverse, (decide (c ≠ '/')) = true := fun c hc => by
    rw [decide_eq_true_eq]
    rintro rfl
    exact hx.slash_not_mem (List.mem_reverse.1 hc)
  rw [through_concat, String.toList_append, List.reverse_append,
    List.takeWhile_append_of_pos hall, List.dropWhile_append_of_pos hall, toList_before]
  split <;> simp

/-- Read from its end, a path through plain names starts with its last letter. -/
lemma exists_cons_reverse (hx : IsPlain x) (names : List String) :
    ∃ c r, (through (names ++ [x])).toList.reverse = c :: r ∧ c ≠ '/' := by
  have hne : x.toList.reverse ≠ [] := List.reverse_ne_nil_iff.2 hx.toList_ne_nil
  obtain ⟨c, r, hr⟩ := List.exists_cons_of_ne_nil hne
  refine ⟨c, r ++ (before names).toList.reverse, ?_, ?_⟩
  · rw [through_concat, String.toList_append, List.reverse_append, hr, List.cons_append]
  · rintro rfl
    exact hx.slash_not_mem (List.mem_reverse.1 (hr ▸ List.mem_cons_self))

lemma settle_eq_self {r : List Char} (hslash : r.head? ≠ some '/') (hdot : ¬['.', '/'] <+: r) :
    settle r = r := by
  unfold settle
  split
  · exact absurd rfl hslash
  · exact absurd (List.prefix_append ['.', '/'] _) hdot
  · rfl

lemma settle_reverse (hx : IsPlain x) (names : List String) :
    settle (through (names ++ [x])).toList.reverse = (through (names ++ [x])).toList.reverse := by
  obtain ⟨c, r, hr, hc⟩ := exists_cons_reverse hx names
  refine settle_eq_self (by simp [hr, hc]) ?_
  rw [through_concat, String.toList_append, List.reverse_append]
  -- a dot before a slash would be the whole name
  intro hp
  rcases hrev : x.toList.reverse with _ | ⟨a, _ | ⟨b, s⟩⟩
  · exact hx.toList_ne_nil (List.reverse_eq_nil_iff.1 hrev)
  · rw [hrev, List.singleton_append, List.cons_prefix_cons] at hp
    rw [List.reverse_eq_iff, ← hp.1] at hrev
    exact hx.ne_dot (String.toList_inj.1 hrev)
  · rw [hrev, List.cons_append, List.cons_append, List.cons_prefix_cons,
      List.cons_prefix_cons] at hp
    have hb : b ∈ x.toList := List.mem_reverse.1 (hrev ▸ by simp)
    exact hx.slash_not_mem (hp.2.1 ▸ hb)

lemma cutLast_through (hx : IsPlain x) (names : List String) :
    cutLast (through (names ++ [x])) = (before names, x) := by
  obtain ⟨htake, hdrop⟩ := takeWhile_reverse hx names
  obtain ⟨c, r, hr, hc⟩ := exists_cons_reverse hx names
  rw [hr] at htake hdrop
  unfold cutLast
  rw [hr, List.dropWhile_cons_of_neg (by simpa using hc)]
  dsimp only
  rw [htake, hdrop, List.reverse_reverse, List.reverse_reverse, String.ofList_toList,
    String.ofList_toList]

/-- The way to a name leads through the names before it. -/
lemma parent?_through (h : ∀ s ∈ names, IsPlain s) (hx : IsPlain x) :
    parent? (through (names ++ [x])) = some (through names) := by
  have hdrop := (takeWhile_reverse hx names).2
  obtain ⟨c, r, hr, -⟩ := exists_cons_reverse hx names
  unfold parent?
  dsimp only
  rw [settle_reverse hx names, hdrop, hr, toList_before]
  rcases List.eq_nil_or_concat names with rfl | ⟨front, y, rfl⟩
  · rfl
  · have hy : IsPlain y := h y (by simp)
    rw [List.concat_eq_append, List.isEmpty_cons, if_neg Bool.false_ne_true]
    have hsettle : settle ('/' :: (through (front ++ [y])).toList.reverse) =
        (through (front ++ [y])).toList.reverse := by
      rw [settle, settle_reverse hy]
    obtain ⟨d, q, hq, -⟩ := exists_cons_reverse hy front
    have hne : ¬front ++ [y] = [] := by simp
    rw [if_neg hne]
    dsimp only
    rw [hsettle, hq]
    dsimp only
    rw [← hq, List.reverse_reverse, String.ofList_toList]

lemma above_through (h : ∀ s ∈ names, IsPlain s) (hx : IsPlain x) :
    above (through (names ++ [x])) = through names :: above (through names) := by
  have hp := parent?_through h hx
  rw [above]
  split
  · rename_i hn
    rw [hp] at hn
    cases hn
  · rename_i up hup
    rw [hp] at hup
    cases hup
    rfl

end FilePath

/-! ### Helpers -/

open FilePath

lemma IsName.isPlain {s : String} (h : IsName s) : IsPlain s where
  ne_empty := h.ne_empty
  ne_dot := by
    rintro rfl
    exact h.dot_not_mem (by simp)
  ne_dots := by
    rintro rfl
    exact h.dot_not_mem (by simp)
  slash_not_mem := h.slash_not_mem

namespace DeclaringType

/-- The name of the class with its nesting flattened. -/
def flat (d : DeclaringType) : String := "$".intercalate d.classes

/-- The name of the file that the helper of `d` goes to. -/
def fileName (d : DeclaringType) (suffix : String) : String := d.flat ++ suffix ++ ".java"

/-- The names on the way to the helper of `d`. -/
def fileNames (d : DeclaringType) (suffix : String) : List String :=
  d.packages ++ [d.fileName suffix]

variable {d t : DeclaringType} {suffix : String}

lemma isPlain_packages (h : d.IsNamed) : ∀ s ∈ d.packages, IsPlain s := fun s hs =>
  (h s (List.mem_append_left _ hs)).isPlain

lemma slash_not_mem_flat (h : d.IsNamed) : '/' ∉ d.flat.toList :=
  Text.not_mem_intercalate (by simp) fun s hs =>
    (h s (List.mem_append_right _ hs)).slash_not_mem

/-- The name of a helper file is not that of a directory of a package, which has no dot. -/
lemma dot_mem_fileName (d : DeclaringType) (suffix : String) :
    '.' ∈ (d.fileName suffix).toList := by
  simp [fileName]

lemma isPlain_fileName (h : d.IsNamed) (hs : '/' ∉ suffix.toList) :
    IsPlain (d.fileName suffix) := by
  have hlong : 2 < (d.fileName suffix).toList.length := by
    simp [fileName]
    omega
  refine ⟨?_, ?_, ?_, ?_⟩
  · rintro he
    simp [he] at hlong
  · rintro he
    simp [he] at hlong
  · rintro he
    simp [he] at hlong
  · simp [fileName, slash_not_mem_flat h, hs]

lemma isPlain_fileNames (h : d.IsNamed) (hs : '/' ∉ suffix.toList) :
    ∀ s ∈ d.fileNames suffix, IsPlain s := by
  intro s hm
  rcases List.mem_append.1 hm with hm | hm
  · exact isPlain_packages h s hm
  · exact List.mem_singleton.1 hm ▸ isPlain_fileName h hs

lemma relativePath_eq (h : d.IsNamed) (hs : '/' ∉ suffix.toList) :
    OutputDirectory.relativePath (.of d suffix) d = through (d.fileNames suffix) := by
  have hpackages := foldl_join_through (isPlain_packages h)
  unfold OutputDirectory.relativePath
  change join (d.packages.foldl join "") (d.fileName suffix) = _
  rw [hpackages, join_through (isPlain_packages h) (isPlain_fileName h hs)]
  rfl

/-- Two helpers go to one file just if their types stand in one package and are named alike once
their nesting is flattened. -/
lemma fileNames_eq_iff : d.fileNames suffix = t.fileNames suffix ↔
    d.packages = t.packages ∧ d.flat = t.flat := by
  unfold fileNames fileName
  constructor
  · intro h
    obtain ⟨hpackages, hfile⟩ := List.append_inj' h (by simp)
    have hfile := List.singleton_inj.1 hfile
    rw [String.append_left_inj, String.append_left_inj] at hfile
    exact ⟨hpackages, hfile⟩
  · rintro ⟨hpackages, hflat⟩
    rw [hpackages, hflat]

lemma packages_eq_iff (hd : d.IsProper) (ht : t.IsProper) :
    d.packages = t.packages ↔ d.package = t.package := by
  refine ⟨fun h => ?_, fun h => ?_⟩
  · rw [hd.package, ht.package, h]
  · unfold packages
    rw [h]

lemma same_relativePath_iff_flat (hd : d.IsProper) (ht : t.IsProper) (hs : '/' ∉ suffix.toList) :
    FilePath.same (OutputDirectory.relativePath (.of d suffix) d)
        (OutputDirectory.relativePath (.of t suffix) t) = true ↔
      d.package = t.package ∧ d.flat = t.flat := by
  rw [relativePath_eq hd.isNamed hs, relativePath_eq ht.isNamed hs,
    same_through (isPlain_fileNames hd.isNamed hs) (isPlain_fileNames ht.isNamed hs),
    fileNames_eq_iff, packages_eq_iff hd ht]

end DeclaringType

end SavedState
