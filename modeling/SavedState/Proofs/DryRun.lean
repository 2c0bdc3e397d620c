import SavedState.Proofs.Layers
import SavedState.Proofs.Mirroring
import SavedState.Proofs.WholeHelpers

/-!
Dry runs beside real ones.

A dry run gives the reports of the real run, and names the artifacts that this creates, just if
no two types with a helper clash. If two do, then only one of them gets its helper in the
directory, but both are named by the dry run.
-/

namespace SavedState

open FilePath OutputDirectory

lemma FilePath.join_inj {base p q : String} (hp : isAbsolute p = false) (hq : isAbsolute q = false)
    (h : join base p = join base q) : p = q := by
  unfold join at h
  rw [hp, hq, if_neg Bool.false_ne_true, if_neg Bool.false_ne_true] at h
  split at h
  · exact (String.append_right_inj base).1 h
  · exact (String.append_right_inj (base ++ "/")).1 h

/-! ### Runs over loaded rounds -/

namespace Host

variable {host : Host} {a : Arguments} {c : Configuration} {rounds : List (String × Round)}

lemma run_of_loaded (hc : Configuration.load host a = .ok c)
    (hr : Round.loadAll host a.manifests = .ok rounds) :
    host.run a =
      if c.isDryRun then (.ok (rehearse c.processor rounds), host.tree)
      else
        match (OutputDirectory.openAt host.base c.outDir).run.run host.tree with
        | (.error e, tree) => (.error (.io c.outDir e), tree)
        | (.ok directory, tree) =>
          (.ok (generate host.medium c.processor directory rounds tree).1,
            (generate host.medium c.processor directory rounds tree).2) := by
  unfold run
  rw [hc, hr]
  rfl

end Host

/-! ### Both summaries -/

/-- Whether the summary of a dry run is that of the real run, apart from the wording of failures,
and names just the artifacts whose files are created, in that order. -/
def Summary.Foretells (dry real : Summary) (directory : OutputDirectory) (suffix : String)
    (types : List DeclaringType) : Prop :=
  dry.rounds.map (fun r => (r.1, r.2.gist)) = real.rounds.map (fun r => (r.1, r.2.gist)) ∧
    ∃ created ⊆ types,
      dry.artifacts = created.map (fun d => (HelperName.of d suffix).artifact) ∧
        real.artifacts =
          created.map fun d => join directory.path (relativePath (.of d suffix) d)

namespace Host

variable {settings : Settings} {directory : OutputDirectory} {rounds : List (String × Round)}
  {tree : FileTree} {types : List DeclaringType}

/-- The types that have a helper after the rounds of a run. -/
def helped (rounds : List (String × Round)) : List DeclaringType :=
  helpedTypes .bundle (rounds.map (·.2))

lemma helped_of_run {σ : Type} (sink : Sink σ) (world : σ) :
    ∀ before r, before ++ [r] <+: rounds.map (·.2) →
      ∀ e ∈ (Processor.run (setup settings) sink (before ++ [r]) world).processor.store.entries,
        e.1 ∈ helped rounds :=
  fun _ _ h _ he => mem_helpedTypes_of_run (setup settings) sink world h he

/-- Reports that are the same one by one are so beside their paths. -/
lemma zip_gist {paths : List String} {l l' : List RoundReport}
    (h : l.map RoundReport.gist = l'.map RoundReport.gist) :
    (paths.zip l).map (fun r => (r.1, r.2.gist)) = (paths.zip l').map fun r => (r.1, r.2.gist) := by
  have hzip : ∀ m : List RoundReport,
      (paths.zip m).map (fun r => (r.1, r.2.gist)) = paths.zip (m.map RoundReport.gist) := by
    intro m
    rw [List.zip_map_right]
    rfl
  rw [hzip, hzip, h]

lemma matches_of_no_clash (h : Housed settings.suffix types)
    (hclash : ∀ d ∈ types, ∀ t ∈ types, ¬d.Clashes t) :
    Processor.Matches (setup settings) Treatment.kind.sink (directory.sink .willing) types
      (Mirrors directory settings.suffix types) := by
  intro d hd fields w w' hw
  exact h.emit_mirrors (v := (setup settings).driver) rfl hclash hd fields hw

lemma artifacts_rehearse : (rehearse settings rounds).artifacts =
    (Processor.run (setup settings) Treatment.kind.sink (rounds.map (·.2)) []).world.names := rfl

lemma artifacts_generate : (generate .willing settings directory rounds tree).1.artifacts =
    (Processor.run (setup settings) (directory.sink .willing) (rounds.map (·.2))
      ⟨tree, []⟩).world.created.map fun e => join directory.path e.1 := rfl

/-- Where no types clash, the dry run is right. -/
lemma foretells_of_no_clash (h : Housed settings.suffix (helped rounds))
    (ht : tree.Tidy directory.place)
    (hclash : ∀ d ∈ helped rounds, ∀ t ∈ helped rounds, ¬d.Clashes t) :
    (rehearse settings rounds).Foretells (generate .willing settings directory rounds tree).1
      directory settings.suffix (helped rounds) := by
  have hstart : Mirrors directory settings.suffix (helped rounds) [] ⟨tree, []⟩ :=
    ⟨ht, [], List.nil_subset _, rfl, rfl⟩
  obtain ⟨-, ⟨-, held, hsub, hnames, hcreated⟩, hreports⟩ :=
    Processor.run_alike (matches_of_no_clash h hclash) hstart (rounds.map (·.2))
      (helped_of_run _ _)
  refine ⟨zip_gist hreports, held, hsub, hnames, ?_⟩
  rw [artifacts_generate, hcreated]
  simp only [List.map_map, Function.comp_def]

/-- A dry run names the artifacts of all types that have a helper. -/
lemma mem_artifacts_rehearse (settings : Settings)
    (hfinal : ∀ x ∈ rounds.getLast?, x.2.isFinal = true)
    {d : DeclaringType} (hd : d ∈ helped rounds) :
    (HelperName.of d settings.suffix).artifact ∈ (rehearse settings rounds).artifacts := by
  rcases List.eq_nil_or_concat rounds with rfl | ⟨before, x, rfl⟩
  · cases hd
  · rw [List.concat_eq_append, List.getLast?_concat] at hfinal
    rw [List.concat_eq_append] at hd ⊢
    have hu : (setup settings).emits x.2 = true := by
      unfold Setup.emits
      rw [hfinal x rfl, Bool.or_true]
    have htypes := types_run (setup settings) Treatment.kind.sink
      (before.map (·.2) ++ [x.2]) []
    unfold helped at hd
    rw [List.map_append, List.map_singleton] at hd
    have hd : d ∈ helpedTypes (setup settings).resolver (before.map (·.2) ++ [x.2]) := hd
    rw [← htypes] at hd
    obtain ⟨⟨d, fields⟩, hm, rfl⟩ := List.mem_map.1 hd
    rw [artifacts_rehearse, List.map_append, List.map_singleton]
    rw [Processor.run_concat] at hm ⊢
    have hb : Processor.Backed (setup settings)
        (Processor.run (setup settings) Treatment.kind.sink (before.map (·.2)) []).processor.store
        (Processor.run (setup settings) Treatment.kind.sink (before.map (·.2)) []).processor.emitted
        (Processor.run (setup settings) Treatment.kind.sink (before.map (·.2)) []).world := by
      rw [Processor.run_eq]
      exact Processor.backed_after rfl Treatment.kind _ []
    exact Processor.mem_names_of_emits rfl Treatment.kind (fun _ => rfl) hb hu hm

/-- A real run creates no file twice. -/
lemma nodup_artifacts_generate (h : Housed settings.suffix (helped rounds))
    (ht : tree.Tidy directory.place) :
    (generate .willing settings directory rounds tree).1.artifacts.Nodup := by
  have hkept : ∀ d ∈ helped rounds, ∀ fields w, directory.Sound w →
      directory.Sound ((setup settings).driver.emit (directory.sink .willing) d fields w).2 :=
    fun d hd fields w hw => h.emit_sound (v := (setup settings).driver) rfl hd fields hw
  have hsound := Processor.run_preserves hkept (w := ⟨tree, []⟩)
    ⟨ht, List.forall_mem_nil _, List.nodup_nil⟩ (rounds.map (·.2)) (helped_of_run _ _)
  have hpaths : ∀ path ∈ (Processor.run (setup settings) (directory.sink .willing)
      (rounds.map (·.2)) ⟨tree, []⟩).world.created.map (·.1), isAbsolute path = false := by
    intro path hm
    obtain ⟨e, he, rfl⟩ := List.mem_map.1 hm
    exact hsound.relative e he
  have hnodup := List.Nodup.map_on (f := join directory.path)
    (fun p hp q hq hj => join_inj (hpaths p hp) (hpaths q hq) hj) hsound.nodup
  rw [List.map_map] at hnodup
  rw [artifacts_generate]
  exact hnodup

/-- Where types clash, the dry run is wrong: it names the artifacts of both, and they would have
to be two files. -/
lemma no_clash_of_foretells (h : Housed settings.suffix (helped rounds))
    (ht : tree.Tidy directory.place) (hfinal : ∀ x ∈ rounds.getLast?, x.2.isFinal = true)
    (hforetells : (rehearse settings rounds).Foretells
      (generate .willing settings directory rounds tree).1 directory settings.suffix
      (helped rounds)) :
    ∀ d ∈ helped rounds, ∀ t ∈ helped rounds, ¬d.Clashes t := by
  rintro d hd t ht' ⟨hne, hclash⟩
  obtain ⟨-, created, hsub, hnames, hpaths⟩ := hforetells
  have hmem : ∀ x ∈ helped rounds, x ∈ created := by
    intro x hx
    have hx' := mem_artifacts_rehearse settings hfinal hx
    rw [hnames] at hx'
    obtain ⟨y, hy, he⟩ := List.mem_map.1 hx'
    rwa [(h.artifact_inj (hsub hy) hx).1 he] at hy
  have hsame : relativePath (.of d settings.suffix) d = relativePath (.of t settings.suffix) t := by
    have hdp := h.proper d hd
    have htp := h.proper t ht'
    have hpackages : d.packages = t.packages := by
      unfold DeclaringType.packages
      rw [hclash.1]
    rw [DeclaringType.relativePath_eq hdp.isNamed h.plain,
      DeclaringType.relativePath_eq htp.isNamed h.plain,
      DeclaringType.fileNames_eq_iff.2 ⟨hpackages, hclash.2⟩]
  have hnodup := nodup_artifacts_generate h ht
  rw [hpaths] at hnodup
  refine hne (List.inj_on_of_nodup_map hnodup (hmem d hd) (hmem t ht') ?_)
  rw [hsame]

/-- **A dry run foretells the real run just if no types clash.** This is so for every
configuration and all manifests that can be loaded, where files take all bytes, the output
directory can be opened and is empty then, and the paths of the helpers can be followed. In any case
both runs give a summary, and the dry run leaves all files as they are. -/
theorem dryRun_foretells_iff_no_clash {host : Host} {a : Arguments} {c : Configuration}
    (hmedium : host.medium = .willing)
    (hc : Configuration.load host { a with dryRun := false } = .ok c) (hreal : c.isDryRun = false)
    (hr : Round.loadAll host a.manifests = .ok rounds)
    (hopen : (OutputDirectory.openAt host.base c.outDir).run.run host.tree = (.ok directory, tree))
    (hempty : ∀ names, names ≠ [] → tree.get? (directory.place ++ names) = none)
    (hsuffix : '/' ∉ c.processor.suffix.toList)
    (hfollows : ∀ d ∈ helped rounds,
      FileTree.Follows (relativePath (.of d c.processor.suffix) d)) :
    ∃ dry real, host.run { a with dryRun := true } = (.ok dry, host.tree) ∧
      (host.run { a with dryRun := false }).1 = .ok real ∧
      (dry.Foretells real directory c.processor.suffix (helped rounds) ↔
        ∀ d ∈ helped rounds, ∀ t ∈ helped rounds, ¬d.Clashes t) := by
  obtain ⟨-, hfinal, hproper⟩ := Round.loadAll_ok hr
  have hhoused : Housed c.processor.suffix (helped rounds) := by
    refine ⟨isProper_of_mem_helpedTypes fun r hm e he => ?_,
      fun d hd t ht => eq_of_mem_helpedTypes hd ht, hsuffix, hfollows⟩
    obtain ⟨x, hx, rfl⟩ := List.mem_map.1 hm
    exact hproper x hx e he
  have htidy : tree.Tidy directory.place := by
    constructor
    · intro names s bytes hg
      rw [hempty _ (by simp)] at hg
      cases hg
    · intro names s hg
      rw [hempty _ (by simp)] at hg
      cases hg
  refine ⟨rehearse c.processor rounds, (generate .willing c.processor directory rounds tree).1,
    ?_, ?_, no_clash_of_foretells hhoused htidy hfinal, foretells_of_no_clash hhoused htidy⟩
  · rw [run_of_loaded (Configuration.load_dryRun hc) hr, if_pos rfl]
  · rw [run_of_loaded hc hr, hreal, if_neg Bool.false_ne_true, hopen, hmedium]

/-- Two classes, of which one stands in the other, and two of which one has a name like the path
to the other. -/
theorem dryRun_foretells_iff_no_clash_nested :
    let host (text : String) : Host := ⟨[(["m"], .file (Text.bytes text))], [], [], .willing⟩
    let a : Arguments := { Arguments.none with manifests := ["m"] }
    let directory : OutputDirectory := ⟨"generated", ["generated"]⟩
    let apart := host "[\x7b\x7d,[[\"A\",\"x\",\"int\"],[\"A.B\",\"x\",\"int\"]]]"
    let clashing := host "[\x7b\x7d,[[\"A$B\",\"x\",\"int\"],[\"A.B\",\"x\",\"int\"]]]"
    (∃ dry real, apart.run { a with dryRun := true } = (.ok dry, apart.tree) ∧
      (apart.run { a with dryRun := false }).1 = .ok real ∧
      dry.Foretells real directory "$$Icicle" [⟨"", "A"⟩, ⟨"", "A.B"⟩]) ∧
    ∃ dry real, clashing.run { a with dryRun := true } = (.ok dry, clashing.tree) ∧
      (clashing.run { a with dryRun := false }).1 = .ok real ∧
      ¬dry.Foretells real directory "$$Icicle" [⟨"", "A$B"⟩, ⟨"", "A.B"⟩] := by
  intro host a directory apart clashing
  have hlayers : Configuration.ofLayer? (Layer.coverAll (Layer.coverAll
      (Layer.coverAll Configuration.default.toLayer []) (Layer.Environment.toLayer []))
      (Configuration.overrides { a with dryRun := false })) = some .default := by decide +kernel
  have hc : ∀ text, Configuration.load (host text) { a with dryRun := false } = .ok .default :=
    fun _ => Configuration.load_eq_ok.2 ⟨none, [], rfl, rfl, hlayers⟩
  have hopen : ∀ text,
      (OutputDirectory.openAt (host text).base "generated").run.run (host text).tree =
        (.ok directory, (host text).tree ++ [(["generated"], .directory)]) := fun _ => rfl
  have hempty : ∀ text, ∀ names, names ≠ [] → FileTree.get?
      ((host text).tree ++ [(["generated"], .directory)]) (directory.place ++ names) = none := by
    rintro text (_ | ⟨s, names⟩) hne
    · exact absurd rfl hne
    · rfl
  let all : List DeclaringType := [⟨"", "A"⟩, ⟨"", "A.B"⟩, ⟨"", "A$B"⟩]
  have hfollows : ∀ d ∈ all, FileTree.Follows (relativePath (.of d "$$Icicle") d) := by
    have hall : ∀ d ∈ all, let path := relativePath (.of d "$$Icicle") d
        '\x00' ∉ path.toList ∧ Text.byteLength path.toList ≤ FileTree.maxPath ∧
          ∀ s ∈ parts path, Text.byteLength s.toList ≤ FileTree.maxName := by decide +kernel
    exact fun d hd => ⟨(hall d hd).1, (hall d hd).2.1, (hall d hd).2.2⟩
  have hboth : ∀ text types,
      (Round.loadAll (host text) a.manifests).toOption.map helped = some types → types ⊆ all →
      ∃ dry real, (host text).run { a with dryRun := true } = (.ok dry, (host text).tree) ∧
        ((host text).run { a with dryRun := false }).1 = .ok real ∧
        (dry.Foretells real directory "$$Icicle" types ↔
          ∀ d ∈ types, ∀ t ∈ types, ¬d.Clashes t) := by
    intro text types hload hsub
    obtain ⟨rounds, hr, rfl⟩ := exists_of_map_toOption hload
    exact dryRun_foretells_iff_no_clash rfl (hc text) rfl hr (hopen text) (hempty text) (by decide)
      fun d hd => hfollows d (hsub hd)
  constructor
  · have hload : (Round.loadAll apart a.manifests).toOption.map helped =
        some [⟨"", "A"⟩, ⟨"", "A.B"⟩] := by
      decide +kernel
    obtain ⟨dry, real, hdry, hreal, hiff⟩ := hboth _ _ hload (by decide)
    exact ⟨dry, real, hdry, hreal, hiff.2 (by decide +kernel)⟩
  · have hload : (Round.loadAll clashing a.manifests).toOption.map helped =
        some [⟨"", "A$B"⟩, ⟨"", "A.B"⟩] := by
      decide +kernel
    obtain ⟨dry, real, hdry, hreal, hiff⟩ := hboth _ _ hload (by decide)
    exact ⟨dry, real, hdry, hreal, fun hf => absurd (hiff.1 hf) (by decide +kernel)⟩

end Host

end SavedState
