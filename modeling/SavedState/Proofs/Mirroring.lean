import Mathlib.Data.List.Nodup
import SavedState.Proofs.DirectoryWriting
import SavedState.Proofs.Grouping
import SavedState.Proofs.MemoryWriting
import SavedState.Proofs.SideBySide
import SavedState.Run

/-!
Memory beside a directory.

Memory knows a helper by the name of its artifact, and a directory by its path. As long as no
two types clash, that is the same, and then one holds the helpers of just those types whose
helpers the other one holds.
-/

namespace SavedState

open FilePath OutputDirectory

/-! ### Types that get a helper -/

/-- The types that have a record after some rounds, each one as it is spelled first. -/
def helpedTypes (resolver : Resolver) (rounds : List Round) : List DeclaringType :=
  firstSpellings ((survivors resolver rounds).map (·.1))

section

variable {resolver : Resolver} {rounds : List Round} {d t : DeclaringType}

lemma types_run {σ : Type} (u : Setup) (sink : Sink σ) (rounds : List Round) (world : σ) :
    (Processor.run u sink rounds world).processor.store.entries.map (·.1) =
      helpedTypes u.resolver rounds :=
  types_of_contents (contents_run u sink rounds world)

lemma helpedTypes_subset (resolver : Resolver) (rounds more : List Round) :
    helpedTypes resolver rounds ⊆ helpedTypes resolver (rounds ++ more) := by
  have happ : survivors resolver (rounds ++ more) =
      survivors resolver rounds ++ survivors resolver more := by simp [survivors]
  unfold helpedTypes
  rw [happ, List.map_append]
  exact List.IsPrefix.subset <| firstSpellings_prefix _ _

/-- What is stored at any time in a run is a type that has a record after it. -/
lemma mem_helpedTypes_of_run {σ : Type} (u : Setup) (sink : Sink σ) (world : σ)
    {before : List Round} {r : Round} (h : before ++ [r] <+: rounds)
    {e : DeclaringType × FieldSet}
    (he : e ∈ (Processor.run u sink (before ++ [r]) world).processor.store.entries) :
    e.1 ∈ helpedTypes u.resolver rounds := by
  obtain ⟨more, rfl⟩ := h
  refine helpedTypes_subset u.resolver (before ++ [r]) more ?_
  rw [← types_run u sink (before ++ [r]) world]
  exact List.mem_map_of_mem he

lemma eq_of_mem_helpedTypes (hd : d ∈ helpedTypes resolver rounds)
    (ht : t ∈ helpedTypes resolver rounds) (h : d.same t = true) : d = t := by
  -- they are the types of a store, and a type has one entry there
  let u : Setup := ⟨.default, resolver, HelperText.emitter⟩
  rw [← types_run u Treatment.kind.sink rounds []] at hd ht
  obtain ⟨x, hx, rfl⟩ := List.mem_map.1 hd
  obtain ⟨y, hy, rfl⟩ := List.mem_map.1 ht
  exact (Store.eq_of_mem_of_same hx hy h).1

lemma isProper_of_mem_helpedTypes
    (h : ∀ r ∈ rounds, ∀ e ∈ r.elements, e.enclosing.IsProper) :
    ∀ d ∈ helpedTypes resolver rounds, d.IsProper := by
  intro d hd
  obtain ⟨x, hx, rfl⟩ := List.mem_map.1 (mem_firstSpellings hd)
  obtain ⟨e, he, hsurvives⟩ := List.mem_filterMap.1 hx
  obtain ⟨r, hr, he⟩ := List.mem_flatMap.1 he
  rw [(Element.of_survivor? hsurvives).1]
  exact h r hr e he

end

/-! ### Clashes -/

/-- Whether two types are different, but stand in one package and are named alike once their
nesting is flattened. -/
def DeclaringType.Clashes (d t : DeclaringType) : Prop :=
  d ≠ t ∧ d.package = t.package ∧ d.flat = t.flat

instance (d t : DeclaringType) : Decidable (d.Clashes t) := inferInstanceAs (Decidable (_ ∧ _))

/-- Types whose helpers have nothing in their way in an empty directory, apart from one another:
they are proper, no two of them are the same, and their paths can be followed. -/
structure Housed (suffix : String) (types : List DeclaringType) : Prop where
  proper : ∀ d ∈ types, d.IsProper
  distinct : ∀ d ∈ types, ∀ t ∈ types, d.same t = true → d = t
  plain : '/' ∉ suffix.toList
  follows : ∀ d ∈ types, FileTree.Follows (relativePath (.of d suffix) d)

namespace Housed

variable {suffix : String} {types : List DeclaringType} {d t : DeclaringType}

lemma followable (h : Housed suffix types) (hd : d ∈ types) :
    FileTree.Followable (d.fileNames suffix) where
  plain := DeclaringType.isPlain_fileNames (h.proper d hd).isNamed h.plain
  follows := by
    rw [← DeclaringType.relativePath_eq (h.proper d hd).isNamed h.plain]
    exact h.follows d hd

/-- An artifact belongs to one type. -/
lemma artifact_inj (h : Housed suffix types) (hd : d ∈ types) (ht : t ∈ types) :
    (HelperName.of d suffix).artifact = (HelperName.of t suffix).artifact ↔ d = t := by
  refine ⟨fun he => h.distinct d hd t ht ?_, fun he => by rw [he]⟩
  exact DeclaringType.same_of_qualified (h.proper d hd) (h.proper t ht)
    ((String.append_left_inj suffix).1 he)

/-- A file belongs to all types that clash with one another. -/
lemma same_relativePath_iff (h : Housed suffix types) (hd : d ∈ types) (ht : t ∈ types) :
    same (relativePath (.of d suffix) d) (relativePath (.of t suffix) t) = true ↔
      d.package = t.package ∧ d.flat = t.flat :=
  DeclaringType.same_relativePath_iff_flat (h.proper d hd) (h.proper t ht) h.plain

end Housed

/-! ### Both worlds -/

/-- Memory and a directory hold the helpers of the same types, and nothing is in the way of more
helpers in the directory. -/
structure Mirrors (o : OutputDirectory) (suffix : String) (types : List DeclaringType)
    (w : Artifacts) (w' : Output) : Prop where
  tidy : w'.tree.Tidy o.place
  held : ∃ held ⊆ types,
    w.names = held.map (fun d => (HelperName.of d suffix).artifact) ∧
      w'.created =
        held.map fun d => (relativePath (.of d suffix) d, (HelperName.of d suffix).artifact)

section

variable {o : OutputDirectory} {suffix : String} {types : List DeclaringType}

/-- Whether a helper is in memory depends on its own type alone. -/
lemma Housed.artifact_mem_iff (h : Housed suffix types) {held : List DeclaringType}
    (hsub : held ⊆ types) {d : DeclaringType} (hd : d ∈ types) {w : Artifacts}
    (hw : w.names = held.map fun d => (HelperName.of d suffix).artifact) :
    (HelperName.of d suffix).artifact ∈ w.names ↔ d ∈ held := by
  rw [hw, List.mem_map]
  constructor
  · rintro ⟨t, ht, he⟩
    exact (h.artifact_inj (hsub ht) hd).1 he ▸ ht
  · exact fun hd => ⟨d, hd, rfl⟩

/-- Whether a file is used already depends on all types that clash with one another. -/
lemma Housed.owner?_isSome_iff (h : Housed suffix types) {held : List DeclaringType}
    (hsub : held ⊆ types) {d : DeclaringType} (hd : d ∈ types) {w : Output}
    (hw : w.created =
      held.map fun d => (relativePath (.of d suffix) d, (HelperName.of d suffix).artifact)) :
    (w.owner? (relativePath (.of d suffix) d)).isSome = true ↔
      ∃ t ∈ held, t.package = d.package ∧ t.flat = d.flat := by
  unfold Output.owner?
  rw [Option.isSome_map, List.find?_isSome, hw]
  constructor
  · rintro ⟨e, he, hs⟩
    obtain ⟨t, ht, rfl⟩ := List.mem_map.1 he
    dsimp only at hs
    exact ⟨t, ht, (h.same_relativePath_iff (hsub ht) hd).1 hs⟩
  · rintro ⟨t, ht, hclash⟩
    refine ⟨_, List.mem_map_of_mem ht, ?_⟩
    dsimp only
    exact (h.same_relativePath_iff (hsub ht) hd).2 hclash

variable {v : Driver} {d : DeclaringType}

/-- **Memory mirrors a directory.** Where no two types clash, both accept and refuse the same
helpers. -/
lemma Housed.emit_mirrors (hv : v.emitter = HelperText.emitter) (h : Housed v.suffix types)
    (hclash : ∀ d ∈ types, ∀ t ∈ types, ¬d.Clashes t) (hd : d ∈ types) (fields : FieldSet)
    {w : Artifacts} {w' : Output} (hw : Mirrors o v.suffix types w w') :
    (v.emit Treatment.kind.sink d fields w).1.1.gist =
        (v.emit (o.sink .willing) d fields w').1.1.gist ∧
      Mirrors o v.suffix types (v.emit Treatment.kind.sink d fields w).2
        (v.emit (o.sink .willing) d fields w').2 := by
  obtain ⟨htidy, held, hsub, hnames, hcreated⟩ := hw
  have hname : HelperName.of d v.suffix = v.helperName d := rfl
  have hmemory := h.artifact_mem_iff hsub hd hnames
  have hfile : (w'.owner? (relativePath (.of d v.suffix) d)).isSome = true ↔ d ∈ held := by
    refine (h.owner?_isSome_iff hsub hd hcreated).trans ⟨?_, fun hm => ⟨d, hm, rfl, rfl⟩⟩
    rintro ⟨t, ht, hpackage, hflat⟩
    by_contra hm
    have hne : t ≠ d := by
      rintro rfl
      exact hm ht
    exact hclash t (hsub ht) d hd ⟨hne, hpackage, hflat⟩
  have hdirectory := o.emit_directory hv (h.proper d hd) h.plain (h.followable hd) fields htidy
  rw [hname] at hmemory hfile
  dsimp only at hdirectory
  by_cases hm : d ∈ held
  · rw [if_pos (hfile.2 hm)] at hdirectory
    obtain ⟨reason', hdirectory⟩ := hdirectory
    obtain ⟨reason, hkind⟩ := Treatment.kind.emit_of_not_accepts fields
      fun ha => ha.2 (hmemory.2 hm)
    rw [hkind, hdirectory]
    exact ⟨rfl, htidy, held, hsub, hnames, hcreated⟩
  · rw [if_neg (mt hfile.1 hm)] at hdirectory
    obtain ⟨tree, htree, hdirectory⟩ := hdirectory
    obtain ⟨hworld, hout⟩ := Treatment.kind.emit_of_accepts fields hv ⟨rfl, mt hmemory.1 hm⟩
    rw [if_pos ⟨isWithin_none _, rfl⟩] at hout
    rw [hworld, hout, hdirectory]
    refine ⟨rfl, htree, held ++ [d], ?_, ?_, ?_⟩
    · exact List.append_subset.2 ⟨hsub, List.cons_subset.2 ⟨hd, List.nil_subset _⟩⟩
    · rw [List.map_append, ← hnames, List.map_singleton, hname]
      exact List.map_append
    · rw [List.map_append, ← hcreated, List.map_singleton, hname]

/-- What is true of a directory all along: no file is created twice. -/
structure OutputDirectory.Sound (o : OutputDirectory) (w : Output) : Prop where
  tidy : w.tree.Tidy o.place
  relative : ∀ e ∈ w.created, isAbsolute e.1 = false
  nodup : (w.created.map (·.1)).Nodup

lemma Housed.emit_sound (hv : v.emitter = HelperText.emitter) (h : Housed v.suffix types)
    (hd : d ∈ types) (fields : FieldSet) {w : Output} (hw : o.Sound w) :
    o.Sound (v.emit (o.sink .willing) d fields w).2 := by
  have hname : HelperName.of d v.suffix = v.helperName d := rfl
  have hdirectory := o.emit_directory hv (h.proper d hd) h.plain (h.followable hd) fields hw.tidy
  have hpath := isAbsolute_through (h.followable hd).plain
  rw [← DeclaringType.relativePath_eq (h.proper d hd).isNamed h.plain, hname] at hpath
  dsimp only at hdirectory
  split at hdirectory
  · obtain ⟨reason, hdirectory⟩ := hdirectory
    rw [hdirectory]
    exact hw
  · rename_i hfree
    obtain ⟨tree, htree, hdirectory⟩ := hdirectory
    rw [hdirectory]
    refine ⟨htree, ?_, ?_⟩
    · refine List.forall_mem_append.2 ⟨hw.relative, ?_⟩
      rw [List.forall_mem_singleton]
      dsimp only
      exact hpath
    · have hnew : relativePath (v.helperName d) d ∉ w.created.map (·.1) := by
        intro hmem
        obtain ⟨e, he, hused⟩ := List.mem_map.1 hmem
        refine hfree ?_
        unfold Output.owner?
        rw [Option.isSome_map, List.find?_isSome]
        refine ⟨e, he, ?_⟩
        rw [hused, same, beq_iff_eq]
      rw [List.map_append, List.map_singleton, ← List.concat_eq_append]
      dsimp only
      exact hw.nodup.concat hnew

end

end SavedState
