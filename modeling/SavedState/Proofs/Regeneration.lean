import SavedState.Proofs.OverlongPackages
import SavedState.Proofs.Surroundings

/-!
Running the generator again.

A run reads its settings and manifests, and then only adds to the files: directories where nothing
was, and helpers. So if no helper takes the place of a file that is read, the next run reads the
same, opens the same directory, and does and says the same. That also goes for what files do not
take, since that is told by what they are given and where they are.
-/

namespace SavedState

open FilePath OutputDirectory

/-! ### Reading again -/

namespace FileTree

variable {t t' : FileTree} {b : Base} {path name : String} {place : Place} {bytes : List UInt8}

lemma openDirectory_lasts (hl : t.LastsIn t') (h : t.openDirectory b path = .ok place) :
    t'.openDirectory b path = .ok place := by
  unfold openDirectory at h ⊢
  split at h
  · cases h
  · rename_i hne
    obtain ⟨_, hpermit, h⟩ := bind_eq_ok h
    rw [if_neg hne, hpermit, ok_bind]
    exact walk_mono (fun p => hl.directory) h

lemma read_eq_ok (h : t.read b place name = .ok bytes) :
    t.get? (place ++ [name]) = some (.file bytes) ∧
      ∀ t' : FileTree, t'.get? (place ++ [name]) = some (.file bytes) →
        t'.read b place name = .ok bytes := by
  unfold read at h ⊢
  obtain ⟨x, hx, h⟩ := bind_eq_ok h
  obtain ⟨rfl, hfound⟩ := find_eq_ok hx
  have hg : t.get? (place ++ [name]) = some (.file bytes) := by
    cases hg : t.get? (place ++ [name]) with
    | none =>
      rw [hg] at h
      cases h
    | some entry =>
      rw [hg] at h
      cases entry with
      | directory => cases h
      | file held =>
        cases h
        rfl
  refine ⟨hg, fun t' hg' => ?_⟩
  rw [hfound, hg']
  rfl

/-- A file that has kept its bytes is found again. -/
lemma file?_lasts (hl : t.LastsIn t') (h : t.file? b path = some bytes)
    (hheld : ∀ up, t.walk b (cutLast path).1 = .ok up →
      t.get? (up ++ [(cutLast path).2]) = some (.file bytes) →
        t'.get? (up ++ [(cutLast path).2]) = some (.file bytes)) :
    t'.file? b path = some bytes := by
  unfold file? at h ⊢
  dsimp only at h ⊢
  split at h
  · cases h
  · rename_i hname
    rw [if_neg hname]
    cases hpermit : permit b path with
    | error e =>
      rw [hpermit] at h
      cases h
    | ok _ =>
      rw [hpermit, ok_bind] at h
      rw [ok_bind]
      cases hup : t.walk b (cutLast path).1 with
      | error e =>
        rw [hup] at h
        cases h
      | ok up =>
        rw [hup, ok_bind] at h
        rw [walk_mono (fun p => hl.directory) hup, ok_bind]
        cases hread : t.read b up (cutLast path).2 with
        | error e =>
          rw [hread] at h
          cases h
        | ok held =>
          rw [hread] at h
          cases h
          obtain ⟨hg, hagain⟩ := read_eq_ok hread
          rw [hagain t' (hheld up hup hg)]
          rfl

end FileTree

namespace Host

/-- The files that a run is told to read: its manifests, and the settings file if one is asked
for. -/
inductive Reads (host : Host) (a : Arguments) : Place → Prop
  | manifest (path name : String) (up : Place) (hpath : path ∈ a.manifests)
      (hname : fileName? path = some name)
      (hup : host.tree.openDirectory host.base (Manifest.directoryOf path) = .ok up) :
      Reads host a (up ++ [name])
  | settings (path : String) (up : Place) (hpath : a.config = some path)
      (hup : host.tree.walk host.base (cutLast path).1 = .ok up) :
      Reads host a (up ++ [(cutLast path).2])

/-- Where a run creates files: below its directory, by their paths. -/
def CreatesAt (host : Host) (a : Arguments) (place : Place) : Prop :=
  ∃ c rounds o start, Configuration.load host a = .ok c ∧ c.isDryRun = false ∧
    Round.loadAll host a.manifests = .ok rounds ∧
    (openAt host.base c.outDir).run.run host.tree = (.ok o, start) ∧
    ∃ e ∈ (Processor.run (setup c.processor) (o.sink host.medium) (rounds.map (·.2))
      ⟨start, []⟩).world.created, place = o.place ++ parts e.1

/-- Whether no file that is read is in the place of a helper that is created. -/
def Spares (host : Host) (a : Arguments) : Prop :=
  ∀ place, host.Reads a place → ¬host.CreatesAt a place

/-- Whether the files that are read have the same bytes in another tree. -/
def ReadsAlike (host : Host) (a : Arguments) (tree : FileTree) : Prop :=
  ∀ place bytes, host.Reads a place →
    host.tree.get? place = some (.file bytes) → tree.get? place = some (.file bytes)

variable {host : Host} {a : Arguments} {tree : FileTree}

/-- The same manifests give the same rounds. -/
lemma loadAll_again (hl : host.tree.LastsIn tree) (hread : host.ReadsAlike a tree)
    {paths : List String} (hpaths : paths ⊆ a.manifests) {rounds : List (String × Round)}
    (h : Round.loadAll host paths = .ok rounds) :
    Round.loadAll { host with tree } paths = .ok rounds := by
  induction paths generalizing rounds with
  | nil => exact h
  | cons path paths ih =>
    rw [List.cons_subset] at hpaths
    obtain ⟨r, hr, h⟩ := bind_eq_ok h
    obtain ⟨rest, hrest, h⟩ := bind_eq_ok h
    have hagain : Round.load { host with tree } path paths.isEmpty = .ok r := by
      rcases Manifest.fails_or_yields host path with ⟨e, he⟩ | ⟨elements, hyields⟩
      · rw [he.load_eq] at hr
        cases hr
      · rw [hyields.load_eq] at hr
        cases hr
        obtain ⟨text, m, ⟨name, up, bytes, hname, hup, hbytes, htext⟩, hm, helements⟩ := hyields
        obtain ⟨hg, hbytes'⟩ := FileTree.read_eq_ok hbytes
        have hholds : Manifest.Holds { host with tree } path text :=
          ⟨name, up, bytes, hname, FileTree.openDirectory_lasts hl hup,
            hbytes' tree (hread _ _ (.manifest path name up hpaths.1 hname hup) hg), htext⟩
        have hyields : Manifest.Yields { host with tree } path elements :=
          ⟨text, m, hholds, hm, helements⟩
        exact hyields.load_eq _
    unfold Round.loadAll
    rw [hagain, ok_bind, ih hpaths.2 hrest, ok_bind]
    exact h

end Host

namespace Configuration

variable {host : Host} {a : Arguments} {c : Configuration} {tree : FileTree}

/-- The same settings file gives the same configuration. -/
lemma load_again (hl : host.tree.LastsIn tree) (hread : host.ReadsAlike a tree)
    (hsettings : ∀ place, settingsIn? tree place = settingsIn? host.tree place)
    (h : load host a = .ok c) : load { host with tree } a = .ok c := by
  cases ha : a.config with
  | none =>
    rw [load_eq_nearest ha] at h ⊢
    have hsame : settingsIn? tree = settingsIn? host.tree := funext hsettings
    dsimp only
    rw [hsame]
    exact h
  | some path =>
    obtain ⟨file, layer, hfile, hlayer, hc⟩ := load_eq_ok.1 h
    refine load_eq_ok.2 ⟨file, layer, ?_, hlayer, hc⟩
    unfold file? at hfile ⊢
    rw [ha] at hfile ⊢
    dsimp only at hfile ⊢
    cases hbytes : host.tree.file? host.base path with
    | none =>
      rw [hbytes] at hfile
      cases hfile
    | some bytes =>
      rw [hbytes] at hfile
      have hagain : tree.file? host.base path = some bytes :=
        FileTree.file?_lasts hl hbytes fun up hup =>
          hread _ _ (.settings path up ha hup)
      have hbase : ({ host with tree } : Host).base = host.base := rfl
      rw [hbase, hagain]
      exact hfile

end Configuration

/-! ### Opening again -/

namespace OutputDirectory

variable {b : Base} {path : String} {o : OutputDirectory} {t t' tree : FileTree}

/-- The directory that is opened is there then. -/
lemma openAt_eq_ok (h : (openAt b path).run.run t = (.ok o, t')) :
    o.path = path ∧ t'.openDirectory b path = .ok o.place := by
  unfold openAt at h
  rw [Act.run_bind, Act.run_get] at h
  dsimp only at h
  cases hopen : t.openDirectory b path with
  | ok place =>
    rw [hopen] at h
    cases h
    exact ⟨rfl, hopen⟩
  | error e =>
    rw [hopen] at h
    dsimp only at h
    split at h
    · obtain ⟨_, t₁, -, h⟩ := Act.bind_eq_ok h
      rw [Act.run_bind, Act.run_get] at h
      obtain ⟨place, t₂, hplace, h⟩ := Act.bind_eq_ok h
      rw [Act.run_liftExcept] at hplace
      obtain ⟨hopen₁, rfl⟩ := Prod.mk.inj hplace
      cases h
      exact ⟨rfl, hopen₁⟩
    · cases h

lemma openAt_again (h : (openAt b path).run.run t = (.ok o, t')) (hl : t'.LastsIn tree) :
    (openAt b path).run.run tree = (.ok o, tree) := by
  obtain ⟨rfl, hopen⟩ := openAt_eq_ok h
  unfold openAt
  rw [Act.run_bind, Act.run_get]
  dsimp only
  rw [FileTree.openDirectory_lasts hl hopen]
  rfl

/-- The directory that is opened is a directory of a rooted tree, if the tree was rooted. -/
lemma openAt_rootedAt (h : (openAt b path).run.run t = (.ok o, t')) (ht : t.RootedAt b) :
    t'.RootedAt o.base := by
  have ht' : t'.RootedAt b := by
    have := FileTree.preserves_openAt FileTree.preserves_rootedAt path t ht
    rwa [h] at this
  obtain ⟨-, hopen⟩ := openAt_eq_ok h
  unfold FileTree.openDirectory at hopen
  split at hopen
  · cases hopen
  · obtain ⟨_, -, hopen⟩ := bind_eq_ok hopen
    exact ⟨ht'.1, ht'.1.walk ht'.2 hopen⟩

end OutputDirectory

/-! ### What is not touched -/

namespace Deposit

variable {o : OutputDirectory} {m : Medium} {x : Deposit} {place : Place} {bytes : List UInt8}

lemma place_eq_parts (hx : x.IsNamed) : x.place o = o.place ++ parts x.path := by
  have hnames : x.names ≠ [] := by simp [names, DeclaringType.fileNames]
  rw [path_eq hx, parts_through hnames fun s hs => (isPlain_names hx s hs).slash_not_mem]
  rfl

/-- A file keeps its bytes as long as no helper is created in its place. -/
lemma file_perform (hx : x.IsNamed) (w : Output)
    (hw : (∀ e ∈ w.created, place ≠ o.place ++ parts e.1) →
      w.tree.get? place = some (.file bytes)) :
    let w' := ((x.perform (o.sink m)).run.run w).2
    (∀ e ∈ w'.created, place ≠ o.place ++ parts e.1) →
      w'.tree.get? place = some (.file bytes) := by
  intro w' hplace
  have hends := ends o m w hx
  unfold w' at hplace ⊢
  generalize (x.perform (o.sink m)).run.run w = result at hends hplace ⊢
  cases hends with
  | owned owner _ howner => exact hw hplace
  | failed e tree _ hnone hgrows => exact (hgrows place).file_iff.2 (hw hplace)
  | stored tree _ hnone hgrows hlocates hd =>
    rw [List.forall_mem_append, List.forall_mem_singleton, ← place_eq_parts hx] at hplace
    dsimp only
    rw [FileTree.get?_put (x.place_ne_nil o), if_neg hplace.2]
    exact (hgrows place).file_iff.2 (hw hplace.1)

end Deposit

namespace Configuration

variable {t t' : FileTree} {place : Place}

lemma settingsIn?_of_grows (h : t.Grows t') : settingsIn? t' place = settingsIn? t place := by
  unfold settingsIn?
  rcases h (place ++ [fileName]) with h | ⟨hnone, hdir⟩
  · rw [h]
  · rw [hnone, hdir]

/-- No helper has the name of a settings file. -/
lemma fileName_ne (d : DeclaringType) (suffix : String) : d.fileName suffix ≠ fileName := by
  intro h
  have hlast := congrArg (fun s : String => s.toList.getLast?) h
  simp [DeclaringType.fileName, fileName] at hlast

lemma settingsIn?_perform {o : OutputDirectory} {m : Medium} {x : Deposit} (hx : x.IsNamed)
    (w : Output) :
    settingsIn? ((x.perform (o.sink m)).run.run w).2.tree place = settingsIn? w.tree place := by
  have hends := Deposit.ends o m w hx
  cases hrun : (x.perform (o.sink m)).run.run w with
  | mk r w' =>
    rw [hrun] at hends
    cases hends with
    | owned owner _ howner => rfl
    | failed e tree _ hnone hgrows => exact settingsIn?_of_grows hgrows
    | stored tree _ hnone hgrows hlocates hd =>
      rw [← settingsIn?_of_grows hgrows]
      unfold settingsIn?
      dsimp only
      rw [FileTree.get?_put (x.place_ne_nil o), if_neg]
      intro he
      have hlast := congrArg List.getLast? he
      simp only [Deposit.place, Deposit.names, DeclaringType.fileNames, ← List.append_assoc,
        List.getLast?_concat, Option.some.injEq] at hlast
      exact fileName_ne x.type x.suffix hlast.symm

end Configuration

/-! ### The same summary -/

lemma blurOutcome_fst (e : DeclaringType × Outcome) : (blurOutcome e).1 = e.1 := by
  unfold blurOutcome
  split <;> rfl

lemma Diagnostic.subject_blur (x : Diagnostic) : x.blur.subject = x.subject := by
  unfold blur
  split <;> rfl

namespace Summary

variable {s s' : Summary}

/-- A summary without the reasons for which the helpers of overlong types have failed. -/
def blur (s : Summary) : Summary :=
  { s with
    rounds := s.rounds.map fun r => (r.1, r.2.blur)
    diagnostics := s.diagnostics.map Diagnostic.blur }

/-- Whether anything is said about the helper of a type. -/
def Mentions (s : Summary) (d : DeclaringType) : Prop :=
  (∃ r ∈ s.rounds, ∃ e ∈ r.2.emission.outcomes, e.1 = d) ∨
    ∃ x ∈ s.diagnostics, x.subject = .type d

lemma mentions_blur {d : DeclaringType} : s.blur.Mentions d ↔ s.Mentions d := by
  simp only [Mentions, blur, RoundReport.blur, List.mem_map, exists_exists_and_eq_and,
    blurOutcome_fst, Diagnostic.subject_blur]

lemma blur_eq_self (h : ∀ d, s.Mentions d → ¬d.IsOverlong) : s.blur = s := by
  have hrounds : (s.rounds.map fun r => (r.1, r.2.blur)) = s.rounds := by
    refine (List.map_congr_left fun r hr => ?_).trans (List.map_id _)
    have houtcomes : r.2.emission.outcomes.map blurOutcome = r.2.emission.outcomes :=
      (List.map_congr_left fun e he => if_neg (h e.1 (.inl ⟨r, hr, e, he, rfl⟩))).trans
        (List.map_id _)
    unfold RoundReport.blur
    rw [houtcomes]
    rfl
  have hdiagnostics : s.diagnostics.map Diagnostic.blur = s.diagnostics := by
    refine (List.map_congr_left fun x hx => ?_).trans (List.map_id _)
    refine if_neg fun hlong => ?_
    obtain ⟨severity, subject, message⟩ := x
    cases subject with
    | element enclosing name => exact hlong
    | type d => exact h d (.inr ⟨_, hx, rfl⟩) hlong
  unfold blur
  rw [hrounds, hdiagnostics]

lemma eq_of_blur_eq (h : s'.blur = s.blur) (hs : ∀ d, s.Mentions d → ¬d.IsOverlong) : s' = s := by
  have hs' : ∀ d, s'.Mentions d → ¬d.IsOverlong := by
    intro d hd
    rw [← mentions_blur, h, mentions_blur] at hd
    exact hs d hd
  rw [← blur_eq_self hs', h, blur_eq_self hs]

lemma blur_ofHistory {σ τ : Type} {paths artifacts : List String} {isDryRun : Bool}
    {h : Processor.History σ} {h' : Processor.History τ}
    (hreports : h'.reports.map RoundReport.blur = h.reports.map RoundReport.blur)
    (hdiagnostics : h'.diagnostics.map Diagnostic.blur = h.diagnostics.map Diagnostic.blur) :
    (ofHistory paths h' artifacts isDryRun).blur =
      (ofHistory paths h artifacts isDryRun).blur := by
  have hzip : ∀ l : List RoundReport,
      ((paths.zip l).map fun r => (r.1, r.2.blur)) = paths.zip (l.map RoundReport.blur) := by
    intro l
    rw [List.zip_map_right]
    rfl
  unfold ofHistory blur
  dsimp only
  rw [hzip, hzip, hreports, hdiagnostics]

end Summary

namespace Host

section

variable {m : Medium} {settings : Settings} {o : OutputDirectory}
  {rounds : List (String × Round)} {start : FileTree} (hs : '/' ∉ settings.suffix.toList)
  (hnamed : ∀ d ∈ helped rounds, d.IsNamed)

include hs hnamed

lemma lasts_run : (⟨start, []⟩ : Output).LastsIn o
    (Processor.run (setup settings) (o.sink m) (rounds.map (·.2)) ⟨start, []⟩).world :=
  Processor.run_preserves (I := fun w => (⟨start, []⟩ : Output).LastsIn o w)
    (fun d hd fields w hw => hw.trans
      (Driver.emit_lasts (v := (setup settings).driver) rfl hs (hnamed d hd) fields w))
    (.refl o _) _ (helped_of_run _ _)

lemma settingsIn?_generate (place : Place) :
    Configuration.settingsIn? (generate m settings o rounds start).2 place =
      Configuration.settingsIn? start place := by
  refine Processor.run_preserves (u := setup settings)
    (I := fun w : Output =>
      Configuration.settingsIn? w.tree place = Configuration.settingsIn? start place)
    (fun d hd fields w hw => ?_) rfl _ (helped_of_run _ _)
  have hx : ((setup settings).driver.deposit d fields).IsNamed := ⟨hnamed d hd, hs⟩
  rw [Driver.emit_snd, Driver.perform_eq rfl, Configuration.settingsIn?_perform hx]
  exact hw

/-- A file that is not in the place of a helper keeps its bytes. -/
lemma file_generate {place : Place} {bytes : List UInt8}
    (hfile : start.get? place = some (.file bytes))
    (hplace : ∀ e ∈ (Processor.run (setup settings) (o.sink m) (rounds.map (·.2))
      ⟨start, []⟩).world.created, place ≠ o.place ++ parts e.1) :
    (generate m settings o rounds start).2.get? place = some (.file bytes) := by
  refine Processor.run_preserves (u := setup settings)
    (I := fun w : Output => (∀ e ∈ w.created, place ≠ o.place ++ parts e.1) →
      w.tree.get? place = some (.file bytes))
    (fun d hd fields w hw => ?_) (fun _ => hfile) _ (helped_of_run _ _) hplace
  have hx : ((setup settings).driver.deposit d fields).IsNamed := ⟨hnamed d hd, hs⟩
  rw [Driver.emit_snd, Driver.perform_eq rfl]
  exact Deposit.file_perform hx w hw

/-- What has been generated is generated again, and nothing changes. -/
lemma generate_again (hroot : start.RootedAt o.base) :
    let first := generate m settings o rounds start
    let again := generate m settings o rounds first.2
    again.2 = first.2 ∧ again.1.blur = first.1.blur := by
  obtain ⟨-, hworld, hreports, hdiagnostics⟩ :=
    Processor.run_again (u := setup settings) rfl hs hnamed (w := ⟨start, []⟩) hroot
      (rounds.map (·.2)) (helped_of_run _ _) (.refl o _)
  intro first again
  unfold again first generate
  dsimp only
  rw [hworld]
  exact ⟨rfl, Summary.blur_ofHistory hreports hdiagnostics⟩

end

variable {host : Host} {a : Arguments} {c : Configuration} {s : Summary} {tree : FileTree}

/-- The next run reads the same and opens the same directory, if all that lasts. -/
lemma run_of_lasts {o : OutputDirectory} {start : FileTree} {rounds : List (String × Round)}
    (hc : Configuration.load host a = .ok c) (hr : Round.loadAll host a.manifests = .ok rounds)
    (hdry : ¬c.isDryRun)
    (hopen : (openAt host.base c.outDir).run.run host.tree = (.ok o, start))
    (hl : start.LastsIn tree) (hread : host.ReadsAlike a tree)
    (hsettings : ∀ place,
      Configuration.settingsIn? tree place = Configuration.settingsIn? start place) :
    { host with tree }.run a =
      (.ok (generate host.medium c.processor o rounds tree).1,
        (generate host.medium c.processor o rounds tree).2) := by
  have hgrows : host.tree.Grows start := by
    have := FileTree.onlyGrows_openAt (b := host.base) c.outDir host.tree
    rwa [hopen] at this
  have hl' := (FileTree.LastsIn.of_grows hgrows).trans hl
  have hc' := Configuration.load_again hl' hread
    (fun place => (hsettings place).trans (Configuration.settingsIn?_of_grows hgrows)) hc
  have hr' := loadAll_again hl' hread (List.Subset.refl _) hr
  have hbase : ({ host with tree } : Host).base = host.base := rfl
  rw [run_of_loaded hc' hr', if_neg hdry, hbase, openAt_again hopen hl]

/-- **Running again changes nothing and says the same**, if no helper is created in the place of a
file that is read. Only of the helpers of overlong types it may say something else: that they have
failed because of the directories which the first run has left. -/
theorem run_twice (hrun : host.run a = (.ok s, tree)) (hroot : host.tree.RootedAt host.base)
    (hc : Configuration.load host a = .ok c) (hsuffix : '/' ∉ c.processor.suffix.toList)
    (hspares : host.Spares a) :
    ∃ s', { host with tree }.run a = (.ok s', tree) ∧ s'.blur = s.blur ∧
      ((∀ d, s.Mentions d → ¬d.IsOverlong) → s' = s) := by
  obtain ⟨c', rounds, hc', hr, -, -⟩ := accounts_of_run hrun
  rw [hc] at hc'
  cases hc'
  rw [run_of_loaded hc hr] at hrun
  split at hrun
  · rename_i hdry
    cases hrun
    refine ⟨_, ?_, rfl, fun _ => rfl⟩
    rw [run_of_loaded hc hr, if_pos hdry]
  · rename_i hdry
    split at hrun
    · cases hrun
    · rename_i o start hopen
      cases hrun
      have hnamed : ∀ d ∈ helped rounds, d.IsNamed := by
        intro d hd
        refine (isProper_of_mem_helpedTypes (fun r hm e he => ?_) d hd).isNamed
        obtain ⟨x, hx, rfl⟩ := List.mem_map.1 hm
        exact (Round.loadAll_ok hr).2.2 x hx e he
      obtain ⟨htree, hblur⟩ :=
        generate_again (m := host.medium) hsuffix hnamed (openAt_rootedAt hopen hroot)
      have hl : start.LastsIn (generate host.medium c.processor o rounds start).2 :=
        (lasts_run hsuffix hnamed).tree
      have hread : host.ReadsAlike a (generate host.medium c.processor o rounds start).2 := by
        intro place bytes hreads hfile
        have hgrows := FileTree.onlyGrows_openAt (b := host.base) c.outDir host.tree
        rw [hopen] at hgrows
        refine file_generate hsuffix hnamed ((hgrows place).file_iff.2 hfile) fun e he hplace => ?_
        exact hspares place hreads ⟨c, rounds, o, start, hc, Bool.eq_false_iff.2 hdry, hr, hopen,
          e, he, hplace⟩
      refine ⟨_, ?_, hblur, Summary.eq_of_blur_eq hblur⟩
      rw [run_of_lasts hc hr hdry hopen hl hread (settingsIn?_generate hsuffix hnamed), htree]

/-- The only manifest is not in the directory for helpers. -/
lemma spares_withManifest (text : String) :
    (withManifest text).Spares { Arguments.none with manifests := ["m"] } := by
  rintro _ (⟨path, name, up, hpath, hname, hup⟩ | ⟨path, up, hpath, -⟩)
  · obtain rfl := List.mem_singleton.1 hpath
    cases hname
    cases hup
    rintro ⟨c, rounds, o, start, hc, -, -, hopen, e, -, hplace⟩
    cases (load_withManifest text ["m"]).symm.trans hc
    cases hopen
    cases hplace
  · cases hpath

/-- Two types whose helpers have the same path. The second helper is refused both times, in the
same words, and the first one is what it was. -/
theorem run_twice_clash :
    let host := withManifest "[\x7b\x7d,[[\"A$B\",\"x\",\"int\"],[\"A.B\",\"y\",\"int\"]]]"
    let a := { Arguments.none with manifests := ["m"] }
    ∃ s tree, host.run a = (.ok s, tree) ∧ s.hasErrors = true ∧ tree ≠ host.tree ∧
      host.tree.RootedAt host.base ∧ Configuration.load host a = .ok .default ∧
      '/' ∉ Configuration.default.processor.suffix.toList ∧ host.Spares a ∧
      (∀ d, s.Mentions d → ¬d.IsOverlong) ∧ { host with tree }.run a = (.ok s, tree) := by
  intro host a
  have hc : Configuration.load host a = .ok .default := load_withManifest _ _
  have hroot : host.tree.RootedAt host.base := rootedAt_withManifest _
  obtain ⟨s, hs, herrors, hshort⟩ : ∃ s, (host.run a).1 = .ok s ∧ s.hasErrors = true ∧
      ∀ d, s.Mentions d → ¬d.IsOverlong := by
    have hall : (host.run a).1.toOption.map (fun s => decide (s.hasErrors = true ∧
        (∀ r ∈ s.rounds, ∀ e ∈ r.2.emission.outcomes, ¬e.1.IsOverlong) ∧
        ∀ x ∈ s.diagnostics, ¬x.subject.IsOverlong)) = some true := by decide +kernel
    obtain ⟨s, hs, hshort⟩ := exists_of_map_toOption hall
    obtain ⟨herrors, houtcomes, hdiagnostics⟩ := of_decide_eq_true hshort
    refine ⟨s, hs, herrors, ?_⟩
    rintro d (⟨r, hr, e, he, rfl⟩ | ⟨x, hx, hd⟩)
    · exact houtcomes r hr e he
    · have := hdiagnostics x hx
      rwa [hd] at this
  have hrun : host.run a = (.ok s, (host.run a).2) := Prod.ext hs rfl
  have hspares : host.Spares a := spares_withManifest _
  have hnew : (host.run a).2 ≠ host.tree := by decide +kernel
  obtain ⟨s', hagain, -, hsame⟩ := run_twice hrun hroot hc (by decide) hspares
  obtain rfl := hsame hshort
  exact ⟨s', _, hrun, herrors, hnew, hroot, hc, by decide, hspares, hshort, hagain⟩

/-- A type whose package has a path that is just too long. Its helper fails because of that path,
and the next time because of the directory that has been left; no helper is created at all. -/
theorem run_twice_overlong :
    let host := withManifest (loneText longPackages)
    let a := { Arguments.none with manifests := ["m"] }
    ∃ s s' tree, host.run a = (.ok s, tree) ∧ s.artifacts = [] ∧
      host.tree.RootedAt host.base ∧ Configuration.load host a = .ok .default ∧
      '/' ∉ Configuration.default.processor.suffix.toList ∧ host.Spares a ∧
      { host with tree }.run a = (.ok s', tree) ∧ s' ≠ s := by
  intro host a
  have hc : Configuration.load host a = .ok .default := load_withManifest _ _
  have hr : Round.loadAll host a.manifests =
      .ok [("m", ⟨[loneField longPackages], true⟩)] :=
    loadAll_lone (fun _ => isName_of_mem_longPackages) fun _ => isClassLike_of_mem_longPackages
  have hroot : host.tree.RootedAt host.base := rootedAt_withManifest _
  let o : OutputDirectory := ⟨"generated", ["generated"]⟩
  let start : FileTree := host.tree ++ [(["generated"], .directory)]
  have hopen : (openAt host.base Configuration.default.outDir).run.run host.tree =
      (.ok o, start) := rfl
  have hempty : ∀ names, names ≠ [] → start.get? (o.place ++ names) = none := by
    rintro (_ | ⟨s, names⟩) hne
    · exact absurd rfl hne
    · rfl
  have hsuffix : '/' ∉ Configuration.default.processor.suffix.toList ∧
      '\x00' ∉ Configuration.default.processor.suffix.toList := by decide
  obtain ⟨tree, hgrows, htree, hartifacts, htree', hne⟩ :=
    generate_lone (m := .willing) (fun _ => isName_of_mem_longPackages) longPackages_tooLongByLast
      (fun s hs => by rw [byteLength_of_mem_longPackages hs]; decide) hsuffix.1 hsuffix.2
      (openAt_rootedAt hopen hroot).1 hempty
  have hread : host.ReadsAlike a tree := by
    intro place bytes _ hb
    have hstart := FileTree.onlyGrows_openAt (b := host.base) Configuration.default.outDir host.tree
    rw [hopen] at hstart
    exact (hgrows _).file_iff.2 ((hstart _).file_iff.2 hb)
  have hdry : ¬Configuration.default.isDryRun := by decide
  refine ⟨_, _, tree, ?_, hartifacts, hroot, hc, hsuffix.1, spares_withManifest _, ?_, hne⟩
  · rw [run_of_loaded hc hr, if_neg hdry, hopen]
    exact congrArg (Prod.mk _) htree
  · rw [run_of_lasts hc hr hdry hopen (.of_grows hgrows) hread
      fun _ => Configuration.settingsIn?_of_grows hgrows]
    exact congrArg (Prod.mk _) htree'

end Host

end SavedState
