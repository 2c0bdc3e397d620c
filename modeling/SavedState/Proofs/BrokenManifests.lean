import SavedState.Proofs.DryRun

/-!
Manifests that cannot be used.

All manifests are read before anything else is done, one after another. So the first one that
cannot be used ends the run, with its own error and with the files as they are; if there is none,
each manifest has its round.
-/

namespace SavedState

/-! ### Errors -/

section

variable {ε α β : Type}

lemma mapM_eq_error {f : α → Except ε β} {front rest : List α} {a : α} {e : ε}
    (hfront : ∀ x ∈ front, ∃ b, f x = .ok b) (ha : f a = .error e) :
    (front ++ a :: rest).mapM f = .error e := by
  induction front with
  | nil =>
    rw [List.nil_append, List.mapM_cons, ha]
    rfl
  | cons x front ih =>
    rw [List.forall_mem_cons] at hfront
    obtain ⟨b, hb⟩ := hfront.1
    rw [List.cons_append, List.mapM_cons, hb, ih hfront.2]
    rfl

/-- The error of a list of results is that of the first one that is an error. -/
lemma exists_of_mapM_eq_error {f : α → Except ε β} {l : List α} {e : ε} (h : l.mapM f = .error e) :
    ∃ front a rest, l = front ++ a :: rest ∧ (∀ x ∈ front, ∃ b, f x = .ok b) ∧ f a = .error e := by
  induction l with
  | nil => cases h
  | cons x l ih =>
    rw [List.mapM_cons] at h
    cases hx : f x with
    | error err =>
      rw [hx] at h
      cases h
      exact ⟨[], x, l, rfl, List.forall_mem_nil _, hx⟩
    | ok b =>
      cases hl : l.mapM f with
      | error err =>
        rw [hx, hl] at h
        cases h
        obtain ⟨front, a, rest, rfl, hfront, ha⟩ := ih hl
        exact ⟨x :: front, a, rest, rfl, List.forall_mem_cons.2 ⟨⟨b, hx⟩, hfront⟩, ha⟩
      | ok bs =>
        rw [hx, hl] at h
        cases h

end

namespace Manifest

variable (host : Host) (path : String)

/-- What the text of a manifest is, if there is one. -/
def Holds (text : String) : Prop :=
  ∃ name place bytes, FilePath.fileName? path = some name ∧
    host.tree.openDirectory host.base (directoryOf path) = .ok place ∧
    host.tree.read ⟨place, true⟩ place name = .ok bytes ∧ Text.ofBytes? bytes = some text

/-- The ways in which a manifest cannot be used. -/
inductive Fails : RunError → Prop
  | noFileName (h : FilePath.fileName? path = none) :
      Fails (.io path ⟨.invalidInput, "not a file path"⟩)
  | noDirectory (name : String) (e : IoError) (hname : FilePath.fileName? path = some name)
      (h : host.tree.openDirectory host.base (directoryOf path) = .error e) :
      Fails (.io (directoryOf path) e)
  | unreadable (name : String) (place : Place) (e : IoError)
      (hname : FilePath.fileName? path = some name)
      (hplace : host.tree.openDirectory host.base (directoryOf path) = .ok place)
      (h : host.tree.read ⟨place, true⟩ place name = .error e) : Fails (.io path e)
  | notText (name : String) (place : Place) (bytes : List UInt8)
      (hname : FilePath.fileName? path = some name)
      (hplace : host.tree.openDirectory host.base (directoryOf path) = .ok place)
      (hbytes : host.tree.read ⟨place, true⟩ place name = .ok bytes)
      (h : Text.ofBytes? bytes = none) : Fails (.io path .notText)
  | notManifest (text : String) (e : Json.ReadError) (htext : Holds host path text)
      (h : ofText text = .error e) : Fails (.manifest path e)
  | noType (text : String) (m : Manifest) (before after : List ManifestEntry)
      (entry : ManifestEntry) (e : TypeSyntaxError) (htext : Holds host path text)
      (hm : ofText text = .ok m) (hentries : m.entries = before ++ entry :: after)
      (hbefore : ∀ x ∈ before, ∃ t, FieldType.read x.type = .ok t)
      (h : FieldType.read entry.type = .error e) : Fails (.element path e)

/-- The elements of a manifest that can be used. -/
def Yields (elements : List Element) : Prop :=
  ∃ text m, Holds host path text ∧ ofText text = .ok m ∧
    List.Forall₂ (fun entry x => ∃ t, FieldType.read entry.type = .ok t ∧
      x = ⟨entry.enclosing, entry.name, t.inherit m.hierarchy.closed.parents, entry.modifiers⟩)
      m.entries elements

variable {host path} {name : String} {place : Place} {text : String}

/-- What a manifest comes to whose directory is there. -/
lemma load_eq (hname : FilePath.fileName? path = some name)
    (hplace : host.tree.openDirectory host.base (directoryOf path) = .ok place) :
    load host path =
      match host.tree.read ⟨place, true⟩ place name with
      | .error e => .error (.io path e)
      | .ok bytes =>
        match Text.ofBytes? bytes with
        | none => .error (.io path .notText)
        | some text => (ofText text).mapError (.manifest path) := by
  have hload : load host path =
      ((host.tree.readText ⟨place, true⟩ place name).mapError (.io path) >>= fun text =>
        (ofText text).mapError (.manifest path)) := by
    unfold load
    rw [hname]
    dsimp only
    rw [hplace]
    rfl
  rw [hload, FileTree.readText]
  cases host.tree.read ⟨place, true⟩ place name with
  | error e => rfl
  | ok bytes =>
    dsimp only [bind, Except.bind]
    cases Text.ofBytes? bytes <;> rfl

lemma load_of_holds (h : Holds host path text) :
    load host path = (ofText text).mapError (.manifest path) := by
  obtain ⟨name, place, bytes, hname, hplace, hbytes, htext⟩ := h
  rw [load_eq hname hplace, hbytes]
  dsimp only
  rw [htext]

lemma toElement_eq_error {closed : Hierarchy} {entry : ManifestEntry} {e : TypeSyntaxError} :
    entry.toElement closed = .error e ↔ FieldType.read entry.type = .error e := by
  unfold ManifestEntry.toElement
  cases FieldType.read entry.type with
  | error err => exact ⟨fun h => by cases h; rfl, fun h => by cases h; rfl⟩
  | ok t => exact iff_of_false nofun nofun

lemma exists_toElement_eq_ok {closed : Hierarchy} {entry : ManifestEntry} :
    (∃ x, entry.toElement closed = .ok x) ↔ ∃ t, FieldType.read entry.type = .ok t := by
  constructor
  · rintro ⟨x, hx⟩
    obtain ⟨t, ht, -⟩ := ManifestEntry.toElement_eq_ok_iff.1 hx
    exact ⟨t, ht⟩
  · rintro ⟨t, ht⟩
    exact ⟨_, ManifestEntry.toElement_eq_ok_iff.2 ⟨t, ht, rfl⟩⟩

/-- **A manifest that cannot be used is no round**, for just that reason. -/
lemma Fails.load_eq {e : RunError} (h : Fails host path e) (isFinal : Bool) :
    Round.load host path isFinal = .error e := by
  have hload : ∀ {e}, load host path = .error e → Round.load host path isFinal = .error e := by
    intro e he
    unfold Round.load
    rw [he]
    rfl
  cases h with
  | noFileName h =>
    refine hload ?_
    unfold load
    rw [h]
  | noDirectory name e hname h =>
    refine hload ?_
    unfold load
    rw [hname]
    dsimp only
    rw [h]
    rfl
  | unreadable name place e hname hplace h =>
    refine hload ?_
    rw [Manifest.load_eq hname hplace, h]
  | notText name place bytes hname hplace hbytes h =>
    refine hload ?_
    rw [Manifest.load_eq hname hplace, hbytes]
    dsimp only
    rw [h]
  | notManifest text e htext h =>
    refine hload ?_
    rw [load_of_holds htext, h]
    rfl
  | noType text m before after entry e htext hm hentries hbefore h =>
    have hm : load host path = .ok m := by
      rw [load_of_holds htext, hm]
      rfl
    have helements : m.entries.mapM (fun x => x.toElement m.hierarchy.closed) = .error e := by
      rw [hentries]
      exact mapM_eq_error (fun x hx => exists_toElement_eq_ok.2 (hbefore x hx))
        (toElement_eq_error.2 h)
    unfold Round.load toRound
    rw [hm]
    dsimp only [bind, Except.bind]
    rw [helements]
    rfl

lemma Yields.load_eq {elements : List Element} (h : Yields host path elements) (isFinal : Bool) :
    Round.load host path isFinal = .ok ⟨elements, isFinal⟩ := by
  obtain ⟨text, m, htext, hm, helements⟩ := h
  have hm : load host path = .ok m := by
    rw [load_of_holds htext, hm]
    rfl
  have hround : m.toRound isFinal = .ok ⟨elements, isFinal⟩ :=
    toRound_eq_ok_iff.2 ⟨rfl, helements.imp fun _ _ => ManifestEntry.toElement_eq_ok_iff.2⟩
  unfold Round.load
  rw [hm]
  dsimp only [bind, Except.bind]
  rw [hround]
  rfl

variable (host path) in
/-- A manifest can be used or cannot. -/
lemma fails_or_yields : (∃ e, Fails host path e) ∨ ∃ elements, Yields host path elements := by
  cases hname : FilePath.fileName? path with
  | none => exact .inl ⟨_, .noFileName hname⟩
  | some name =>
    cases hplace : host.tree.openDirectory host.base (directoryOf path) with
    | error e => exact .inl ⟨_, .noDirectory name e hname hplace⟩
    | ok place =>
      cases hbytes : host.tree.read ⟨place, true⟩ place name with
      | error e => exact .inl ⟨_, .unreadable name place e hname hplace hbytes⟩
      | ok bytes =>
        cases htext : Text.ofBytes? bytes with
        | none => exact .inl ⟨_, .notText name place bytes hname hplace hbytes htext⟩
        | some text =>
          have hholds : Holds host path text := ⟨name, place, bytes, hname, hplace, hbytes, htext⟩
          cases hm : ofText text with
          | error e => exact .inl ⟨_, .notManifest text e hholds hm⟩
          | ok m =>
            cases hl : m.entries.mapM (fun x => x.toElement m.hierarchy.closed) with
            | error e =>
              obtain ⟨before, entry, after, hentries, hbefore, h⟩ := exists_of_mapM_eq_error hl
              exact .inl ⟨_, .noType text m before after entry e hholds hm hentries
                (fun x hx => exists_toElement_eq_ok.1 (hbefore x hx)) (toElement_eq_error.1 h)⟩
            | ok elements =>
              exact .inr ⟨elements, text, m, hholds, hm, (mapM_eq_ok_iff.1 hl).imp fun _ _ =>
                ManifestEntry.toElement_eq_ok_iff.1⟩

lemma Fails.not_yields {e : RunError} (h : Fails host path e) {elements : List Element} :
    ¬Yields host path elements := fun hg => by
  have := (h.load_eq true).symm.trans (hg.load_eq true)
  cases this

end Manifest

/-! ### All manifests -/

section

open Manifest

variable {host : Host} {paths : List String}

/-- The error of the first manifest that cannot be used. -/
def FirstFailure (host : Host) (paths : List String) (e : RunError) : Prop :=
  ∃ before path after, paths = before ++ path :: after ∧
    (∀ q ∈ before, ∀ e', ¬Fails host q e') ∧ Fails host path e

/-- The rounds of manifests that can all be used. -/
structure RoundsOf (host : Host) (paths : List String) (rounds : List (String × Round)) :
    Prop where
  given : List.Forall₂ (fun path x => x.1 = path ∧ Yields host path x.2.elements) paths rounds
  final : ∀ i (_ : i < rounds.length), rounds[i].2.isFinal = true ↔ i + 1 = rounds.length

lemma loadAll_of_firstFailure {e : RunError} (h : FirstFailure host paths e) :
    Round.loadAll host paths = .error e := by
  obtain ⟨before, path, after, rfl, hbefore, hpath⟩ := h
  induction before with
  | nil =>
    rw [List.nil_append, Round.loadAll, hpath.load_eq]
    rfl
  | cons q before ih =>
    rw [List.forall_mem_cons] at hbefore
    rcases fails_or_yields host q with ⟨e', hq⟩ | ⟨elements, hq⟩
    · exact absurd hq (hbefore.1 e')
    · rw [List.cons_append, Round.loadAll, hq.load_eq, ih hbefore.2]
      rfl

lemma exists_loadAll (h : ∀ path ∈ paths, ∀ e, ¬Fails host path e) :
    ∃ rounds, Round.loadAll host paths = .ok rounds ∧ RoundsOf host paths rounds := by
  induction paths with
  | nil => exact ⟨[], rfl, .nil, fun i hi => absurd hi (Nat.not_lt_zero i)⟩
  | cons path paths ih =>
    rw [List.forall_mem_cons] at h
    obtain ⟨rounds, hrounds, hgiven, hfinal⟩ := ih h.2
    rcases fails_or_yields host path with ⟨e, hpath⟩ | ⟨elements, hpath⟩
    · exact absurd hpath (h.1 e)
    · refine ⟨(path, ⟨elements, paths.isEmpty⟩) :: rounds, ?_, .cons ⟨rfl, hpath⟩ hgiven, ?_⟩
      · rw [Round.loadAll, hpath.load_eq, hrounds]
        rfl
      · rintro (_ | i) hi
        · have hlength := hgiven.length_eq
          cases paths <;> cases rounds <;> simp_all
        · simpa using hfinal i (Nat.lt_of_succ_lt_succ hi)

lemma exists_firstFailure (h : ∃ path ∈ paths, ∃ e, Fails host path e) :
    ∃ e, FirstFailure host paths e := by
  induction paths with
  | nil => exact absurd h (by simp)
  | cons path paths ih =>
    by_cases hpath : ∃ e, Fails host path e
    · obtain ⟨e, he⟩ := hpath
      exact ⟨e, [], path, paths, rfl, List.forall_mem_nil _, he⟩
    · have hlater : ∃ q ∈ paths, ∃ e, Fails host q e := by
        obtain ⟨q, hq, e, he⟩ := h
        rcases List.mem_cons.1 hq with rfl | hq
        · exact absurd ⟨e, he⟩ hpath
        · exact ⟨q, hq, e, he⟩
      obtain ⟨e, before, q, after, rfl, hbefore, hq⟩ := ih hlater
      exact ⟨e, path :: before, q, after, rfl,
        List.forall_mem_cons.2 ⟨fun e' he' => hpath ⟨e', he'⟩, hbefore⟩, hq⟩

end

namespace Host

/-- What a run does once it has its rounds. -/
def runRounds (host : Host) (c : Configuration) (rounds : List (String × Round)) :
    Except RunError Summary × FileTree :=
  if c.isDryRun then (.ok (rehearse c.processor rounds), host.tree)
  else
    match (OutputDirectory.openAt host.base c.outDir).run.run host.tree with
    | (.error e, tree) => (.error (.io c.outDir e), tree)
    | (.ok directory, tree) =>
      (.ok (generate host.medium c.processor directory rounds tree).1,
        (generate host.medium c.processor directory rounds tree).2)

/-- **A broken manifest leaves everything as it is.** If one of the manifests cannot be used, the
run gives the error of the first such manifest, whatever the others hold, and no file or directory
has changed. If all of them can be used, there is a round for each, in the order of the paths and
with the elements of the manifest; the last one is final, and no other. -/
theorem run_of_manifests {host : Host} {a : Arguments} {c : Configuration}
    (hc : Configuration.load host a = .ok c) :
    (∀ path, (∃ e, Manifest.Fails host path e) ↔ ¬∃ elements, Manifest.Yields host path elements) ∧
      ((∃ path ∈ a.manifests, ∃ e, Manifest.Fails host path e) →
        ∃ e, FirstFailure host a.manifests e) ∧
      (∀ e, FirstFailure host a.manifests e → host.run a = (.error e, host.tree)) ∧
      ((∀ path ∈ a.manifests, ∀ e, ¬Manifest.Fails host path e) →
        ∃ rounds, RoundsOf host a.manifests rounds ∧ host.run a = host.runRounds c rounds) := by
  refine ⟨fun path => ?_, exists_firstFailure, fun e he => ?_, fun h => ?_⟩
  · refine ⟨fun ⟨e, he⟩ ⟨elements, hg⟩ => he.not_yields hg, fun hno => ?_⟩
    exact (Manifest.fails_or_yields host path).resolve_right hno
  · unfold run
    rw [hc, loadAll_of_firstFailure he]
    rfl
  · obtain ⟨rounds, hrounds, hof⟩ := exists_loadAll h
    exact ⟨rounds, hof, run_of_loaded hc hrounds⟩

/-- A good manifest, one whose bytes are no text, and one that is no JSON. The error is that of
the bad one that comes first; and two good ones are two rounds. -/
theorem run_of_manifests_two_bad :
    let host : Host :=
      ⟨[(["m"], .file (Text.bytes "[\x7b\x7d,[[\"A\",\"x\",\"int\"]]]")), (["b"], .file [255]),
        (["j"], .file (Text.bytes "["))], [], [], .willing⟩
    let a (paths : List String) : Arguments := { Arguments.none with manifests := paths }
    host.run (a ["m", "b", "j"]) = (.error (.io "b" .notText), host.tree) ∧
      (∃ e, host.run (a ["m", "j", "b"]) = (.error (.manifest "j" e), host.tree)) ∧
      ∃ rounds, RoundsOf host ["m", "m"] rounds ∧
        host.run (a ["m", "m"]) = host.runRounds .default rounds := by
  intro host a
  have hlayers : Configuration.ofLayer? (Layer.coverAll (Layer.coverAll
      (Layer.coverAll Configuration.default.toLayer []) (Layer.Environment.toLayer []))
      (Configuration.overrides Arguments.none)) = some .default := by decide +kernel
  have hc : ∀ paths, Configuration.load host (a paths) = .ok .default :=
    fun _ => Configuration.load_eq_ok.2 ⟨none, [], rfl, rfl, hlayers⟩
  have hgood : ∀ e, ¬Manifest.Fails host "m" e := by
    intro e he
    have hloaded : (Round.load host "m" true).toOption.isSome = true := by decide +kernel
    rw [he.load_eq] at hloaded
    cases hloaded
  have hbytes : Manifest.Fails host "b" (.io "b" .notText) :=
    .notText "b" [] [255] (by decide) rfl rfl (by decide +kernel)
  obtain ⟨e, hjson⟩ : ∃ e, Manifest.Fails host "j" (.manifest "j" e) := by
    have htext : Manifest.Holds host "j" "[" :=
      ⟨"j", [], Text.bytes "[", by decide, rfl, rfl, by decide +kernel⟩
    have hbad : (Manifest.ofText "[").toOption.isNone = true := by decide +kernel
    cases hm : Manifest.ofText "[" with
    | error e => exact ⟨e, .notManifest "[" e htext hm⟩
    | ok m =>
      rw [hm] at hbad
      cases hbad
  have hfirst : ∀ {path e after}, Manifest.Fails host path e →
      FirstFailure host ("m" :: path :: after) e := fun h =>
    ⟨["m"], _, _, rfl, by simpa using hgood, h⟩
  refine ⟨(run_of_manifests (hc _)).2.2.1 _ (hfirst hbytes),
    ⟨e, (run_of_manifests (hc _)).2.2.1 _ (hfirst hjson)⟩,
    (run_of_manifests (hc ["m", "m"])).2.2.2 fun path hpath => ?_⟩
  have hm : path = "m" := by simpa [a] using hpath
  exact hm ▸ hgood

end Host

end SavedState
