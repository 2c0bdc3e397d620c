import SavedState.Proofs.HelperPath

/-!
Helpers that go to one file.

Whatever the suffix and the names in a declaring type are, the file of its helper stands below the
output directory, in a directory for each segment of the package. Two types share a file just if
they stand in one package and their names become equal where every dot is made a dollar sign. Where
one helper has its file, no other one has a directory.
-/

namespace SavedState

open FilePath OutputDirectory

namespace Text

/-- The parts of a text, joined by another character than the one between them. -/
lemma intercalate_parts (sep other : Char) (s : List Char) :
    [other].intercalate (parts sep s) = s.map fun c => if c = sep then other else c := by
  induction s with
  | nil => rfl
  | cons c s ih =>
    have hjoin : ∀ p q : List Char, ∀ ps : List (List Char),
        [other].intercalate (p :: q :: ps) = p ++ other :: [other].intercalate (q :: ps) := by
      intro p q ps
      simp [List.intercalate, List.intersperse]
    by_cases hc : c = sep
    · subst hc
      rw [parts_sep, List.map_cons, if_pos rfl, ← ih]
      exact hjoin [] (cut c s).1 (cut c s).2
    · rw [parts_cons hc, List.map_cons, if_neg hc, ← ih]
      simp only [parts]
      -- the character joins the first part, whether others come after it or not
      generalize (cut sep s).2 = ps
      cases ps with
      | nil => simp [List.intercalate, List.intersperse]
      | cons q ps => rw [hjoin, hjoin, List.cons_append]

/-- A name in which every dot has become a dollar sign. -/
def flattened (name : String) : String :=
  String.ofList (name.toList.map fun c => if c = '.' then '$' else c)

/-- Names without a dollar sign are told apart when they are flattened. -/
lemma flattened_inj {m n : String} (hm : '$' ∉ m.toList) (hn : '$' ∉ n.toList)
    (h : flattened m = flattened n) : m = n := by
  have hback : ∀ {n : String}, '$' ∉ n.toList →
      (flattened n).toList.map (fun c => if c = '$' then '.' else c) = n.toList := by
    intro n hn
    rw [flattened, String.toList_ofList, List.map_map]
    refine (List.map_congr_left fun c hc => ?_).trans (List.map_id _)
    have hne : c ≠ '$' := fun he => hn (he ▸ hc)
    by_cases hdot : c = '.' <;> simp [hdot, hne]
  have hlists : m.toList = n.toList := by rw [← hback hm, ← hback hn, h]
  exact String.toList_inj.1 hlists

end Text

namespace FilePath

variable {names : List String}

/-- The directories above a path through plain names lead through fewer of them. -/
lemma mem_above_through (h : ∀ s ∈ names, IsPlain s) {up : String}
    (hup : up ∈ above (through names)) :
    ∃ front, front <+: names ∧ front.length < names.length ∧ up = through front := by
  induction names using List.reverseRecOn with
  | nil =>
    rw [above] at hup
    exact absurd hup List.not_mem_nil
  | append_singleton names x ih =>
    have hnames : ∀ s ∈ names, IsPlain s := fun s hs => h s (List.mem_append_left _ hs)
    rw [above_through hnames (h x (by simp)), List.mem_cons] at hup
    rcases hup with rfl | hup
    · exact ⟨names, List.prefix_append _ _, by simp, rfl⟩
    · obtain ⟨front, hfront, hlt, rfl⟩ := ih hnames hup
      refine ⟨front, hfront.trans (List.prefix_append _ _), ?_, rfl⟩
      rw [List.length_append]
      omega

end FilePath

namespace DeclaringType

variable {d t : DeclaringType} {suffix : String}

lemma flat_eq (d : DeclaringType) : d.flat = Text.flattened d.name := by
  apply String.toList_inj.1
  have : String.toList ∘ String.ofList = id := by funext; simp
  unfold flat classes Text.segments Text.flattened
  rw [String.toList_intercalate, List.map_map, this, List.map_id]
  exact (Text.intercalate_parts '.' '$' d.name.toList).trans String.toList_ofList.symm

lemma fileNames_eq (d : DeclaringType) (suffix : String) :
    d.fileNames suffix = d.packages ++ [Text.flattened d.name ++ suffix ++ ".java"] := by
  rw [fileNames, fileName, flat_eq]

/-- No file of a helper stands where another one needs a directory. -/
lemma fileNames_eq_of_begins (ht : t.IsNamed) (h : d.fileNames suffix <+: t.fileNames suffix) :
    d.fileNames suffix = t.fileNames suffix := by
  rcases List.prefix_concat_iff.1 h with heq | hdirectory
  · exact heq
  · have hfile : d.fileName suffix ∈ t.packages := hdirectory.subset (by simp [fileNames])
    -- the name of a file has a dot and that of a package has none
    have hname : IsName (d.fileName suffix) := ht _ (List.mem_append_left _ hfile)
    exact absurd (dot_mem_fileName d suffix) hname.dot_not_mem

/-- **Files are shared by flattening alone.** The file of a helper has a path below the root: the
segments of the package and then the flattened name with the suffix and `.java`, where each of them
stands for itself. Two types that have been read get one path just if they have one package and
one flattened name, so not from different packages, nor with different names without a dollar
sign. No path leads on from another one. -/
theorem files_shared_by_flattening :
    (∀ s d suffix, read s = .ok d → '/' ∉ suffix.toList →
      let path := relativePath (.of d suffix) d
      isAbsolute path = false ∧ Text.dotted d.packages = d.package ∧
      components path = d.packages ++ [Text.flattened d.name ++ suffix ++ ".java"] ∧
      path = "/".intercalate (components path) ∧
      ∀ name ∈ components path, name ≠ "" ∧ name ≠ "." ∧ name ≠ ".." ∧ '/' ∉ name.toList) ∧
    ∀ s s' d t suffix, read s = .ok d → read s' = .ok t → '/' ∉ suffix.toList →
      let path := relativePath (.of d suffix) d
      let path' := relativePath (.of t suffix) t
      (FilePath.same path path' = true ↔
        d.package = t.package ∧ Text.flattened d.name = Text.flattened t.name) ∧
      (FilePath.same path path' = true ↔ path = path') ∧
      (d.package ≠ t.package → FilePath.same path path' = false) ∧
      ('$' ∉ d.name.toList → '$' ∉ t.name.toList → d.name ≠ t.name →
        FilePath.same path path' = false) ∧
      (components path <+: components path' → path = path') ∧
      ∀ up ∈ above path', FilePath.same path up = false := by
  refine ⟨fun s d suffix hread hs => ?_, fun s s' d t suffix hd ht hs => ?_⟩
  · have hd := isProper_of_read hread
    have hplain := isPlain_fileNames hd.isNamed hs
    have hnames : components (relativePath (.of d suffix) d) = d.fileNames suffix := by
      rw [relativePath_eq hd.isNamed hs, components_through hplain]
    dsimp only
    rw [hnames, ← fileNames_eq, relativePath_eq hd.isNamed hs]
    refine ⟨isAbsolute_through hplain, hd.package.symm, rfl, rfl, fun name hname => ?_⟩
    have hname := hplain name hname
    exact ⟨hname.ne_empty, hname.ne_dot, hname.ne_dots, hname.slash_not_mem⟩
  · have hd := isProper_of_read hd
    have ht := isProper_of_read ht
    have hplain := isPlain_fileNames hd.isNamed hs
    have hplain' := isPlain_fileNames ht.isNamed hs
    have hsame := same_relativePath_iff_flat hd ht hs
    rw [flat_eq, flat_eq] at hsame
    have hpath := relativePath_eq hd.isNamed hs
    have hpath' := relativePath_eq ht.isNamed hs
    dsimp only
    refine ⟨hsame, ?_, ?_, ?_, ?_, ?_⟩
    · rw [hpath, hpath', same_through hplain hplain']
      refine ⟨congrArg through, fun h => ?_⟩
      rw [← components_through hplain, h, components_through hplain']
    · intro hne
      rw [← Bool.not_eq_true, hsame]
      exact fun h => hne h.1
    · intro hdollar hdollar' hne
      rw [← Bool.not_eq_true, hsame]
      exact fun h => hne (Text.flattened_inj hdollar hdollar' h.2)
    · rw [hpath, hpath', components_through hplain, components_through hplain']
      exact fun h => congrArg through (fileNames_eq_of_begins ht.isNamed h)
    · intro up hup
      rw [hpath'] at hup
      obtain ⟨front, hfront, hlt, rfl⟩ := mem_above_through hplain' hup
      have hplainFront : ∀ x ∈ front, IsPlain x := fun x hx => hplain' x (hfront.subset hx)
      rw [← Bool.not_eq_true, hpath, same_through hplain hplainFront]
      intro heq
      rw [← heq] at hfront hlt
      rw [fileNames_eq_of_begins ht.isNamed hfront] at hlt
      exact absurd hlt (Nat.lt_irrefl _)

/-- A class whose name looks like the path to another one shares its file. A third class has the
name of a directory of theirs, but its file has not. -/
theorem files_shared_by_flattening_dollar_sign :
    let nested : DeclaringType := ⟨"a.é", "Outer.Inner"⟩
    let dollar : DeclaringType := ⟨"a.é", "Outer$Inner"⟩
    let other : DeclaringType := ⟨"a", "é"⟩
    (read "a.é.Outer.Inner" = .ok nested ∧ read "a.é.Outer$Inner" = .ok dollar ∧
      read "a.é" = .ok other ∧ '/' ∉ "".toList) ∧
      components (relativePath (.of nested "") nested) = ["a", "é", "Outer$Inner.java"] ∧
      relativePath (.of nested "") nested = relativePath (.of dollar "") dollar ∧
      FilePath.same (relativePath (.of nested "") nested) (relativePath (.of other "") other) =
        false ∧
      ∀ up ∈ above (relativePath (.of nested "") nested),
        FilePath.same (relativePath (.of other "") other) up = false := by
  intro nested dollar other
  have hnested : read "a.é.Outer.Inner" = .ok nested := by decide +kernel
  have hdollar : read "a.é.Outer$Inner" = .ok dollar := by decide +kernel
  have hother : read "a.é" = .ok other := by decide +kernel
  have hs : '/' ∉ "".toList := by decide
  have hnames : nested.packages ++ [Text.flattened nested.name ++ "" ++ ".java"] =
      ["a", "é", "Outer$Inner.java"] := by decide +kernel
  have hflat : nested.package = dollar.package ∧
      Text.flattened nested.name = Text.flattened dollar.name := by decide +kernel
  have hpackage : nested.package ≠ other.package := by decide +kernel
  clear_value nested dollar other
  obtain ⟨hplace, hpairs⟩ := files_shared_by_flattening
  obtain ⟨-, -, hcomponents, -⟩ := hplace _ _ "" hnested hs
  obtain ⟨hshared, hequal, -⟩ := hpairs _ _ _ _ "" hnested hdollar hs
  obtain ⟨-, -, hapart, -⟩ := hpairs _ _ _ _ "" hnested hother hs
  obtain ⟨-, -, -, -, -, hup⟩ := hpairs _ _ _ _ "" hother hnested hs
  exact ⟨⟨hnested, hdollar, hother, hs⟩, hcomponents.trans hnames, hequal.1 (hshared.2 hflat),
    hapart hpackage, hup⟩

end DeclaringType

end SavedState
