import SavedState.Proofs.MemoryVisits

/-!
Runs that differ in how one artifact is treated.

A visit to a type with that artifact may end differently in the two runs, but what it adds to a
pass is all about this type and this artifact. A visit to any other type adds the same in both:
the number beside the type and whether its artifact is there have never depended on the one
artifact.
-/

namespace SavedState

/-- All artifacts but one. -/
def Artifacts.without (w : Artifacts) (name : String) : Artifacts := w.filter fun a => a.1 ≠ name

/-- Whether a diagnostic is about the helper of a type with this artifact. -/
def Diagnostic.isForArtifact (v : Driver) (name : String) (x : Diagnostic) : Bool :=
  match x.subject with
  | .element _ _ => false
  | .type d => (v.helperName d).artifact = name

namespace Artifacts

variable {w w' : Artifacts} {name other : String}

lemma mem_names_without (h : other ≠ name) : other ∈ (w.without name).names ↔ other ∈ w.names := by
  unfold names without
  simp only [List.mem_map, List.mem_filter, decide_eq_true_eq]
  refine ⟨fun ⟨a, ha, he⟩ => ⟨a, ha.1, he⟩, fun ⟨a, ha, he⟩ => ⟨a, ⟨ha, he ▸ h⟩, he⟩⟩

lemma mem_names_of_without_eq (hw : w.without name = w'.without name) (h : other ≠ name) :
    other ∈ w.names ↔ other ∈ w'.names := by
  rw [← mem_names_without h, hw, mem_names_without h]

lemma get?_without (h : other ≠ name) : (w.without name).get? other = w.get? other := by
  unfold get? without
  induction w with
  | nil => rfl
  | cons a w ih =>
    rw [List.filter_cons]
    by_cases ha : a.1 = name
    · have hne : (other == a.1) = false := by simpa [ha] using h
      rw [if_neg (by simpa using ha), ih, List.lookup_cons, hne]
    · rw [if_pos (by simpa using ha), List.lookup_cons, List.lookup_cons, ih]

lemma without_append (w v : Artifacts) (name : String) :
    without (w ++ v) name = w.without name ++ v.without name :=
  List.filter_append ..

lemma without_eq_nil (h : ∀ a ∈ w, a.1 = name) : w.without name = [] :=
  List.filter_eq_nil_iff.2 fun a ha => by simp [h a ha]

end Artifacts

namespace Processor

variable (u : Setup) (name : String)

/-- The outcomes of the types with another artifact. -/
def otherOutcomes (l : List (DeclaringType × Outcome)) : List (DeclaringType × Outcome) :=
  l.filter fun o => (u.driver.helperName o.1).artifact ≠ name

/-- The diagnostics that are not about the helper of a type with this artifact. -/
def otherDiagnostics (l : List Diagnostic) : List Diagnostic :=
  l.filter fun x => !x.isForArtifact u.driver name

/-- A type that is not stored as one with this artifact. -/
def Clear (s : Store) (d : DeclaringType) : Prop :=
  ∀ e ∈ s.entries, e.1.same d = true → (u.driver.helperName e.1).artifact ≠ name

/-- Two passes over a store that differ in one artifact and the types it belongs to. -/
structure Pass.AlikeBut (s : Store) (pass pass' : Pass Artifacts) : Prop where
  emitted : ∀ d, Clear u name s d → pass.emitted.get? d = pass'.emitted.get? d
  world : pass.world.without name = pass'.world.without name
  visited : pass.outcomes.map (·.1) = pass'.outcomes.map (·.1)
  outcomes : otherOutcomes u name pass.outcomes = otherOutcomes u name pass'.outcomes
  diagnostics : otherDiagnostics u name pass.diagnostics = otherDiagnostics u name pass'.diagnostics

/-- Two rounds that differ in one artifact and the types it belongs to. -/
structure Step.AlikeBut (s s' : Step Artifacts) : Prop where
  store : s.processor.store = s'.processor.store
  report : s'.report =
    { s.report with
      emission := s'.report.emission
      errors := s'.report.errors
      warnings := s'.report.warnings }
  visited : s.report.emission.outcomes.map (·.1) = s'.report.emission.outcomes.map (·.1)
  outcomes : otherOutcomes u name s.report.emission.outcomes =
    otherOutcomes u name s'.report.emission.outcomes
  diagnostics : otherDiagnostics u name s.diagnostics = otherDiagnostics u name s'.diagnostics
  world : s.world.without name = s'.world.without name

variable {u name} {t t' : Treatment} {s : Store} {pass pass' : Pass Artifacts}

/-! ### Visits -/

lemma otherOutcomes_append (l m : List (DeclaringType × Outcome)) :
    otherOutcomes u name (l ++ m) = otherOutcomes u name l ++ otherOutcomes u name m :=
  List.filter_append ..

lemma otherDiagnostics_append (l m : List Diagnostic) :
    otherDiagnostics u name (l ++ m) = otherDiagnostics u name l ++ otherDiagnostics u name m :=
  List.filter_append ..

/-- The same addition to both passes. -/
lemma Pass.AlikeBut.plus (h : pass.AlikeBut u name s pass') (d : DeclaringType) (x : Addition) :
    (pass.plus d x).AlikeBut u name s (pass'.plus d x) where
  emitted c hc := by rw [get?_plus, get?_plus, h.emitted c hc]
  world := by
    unfold Pass.plus
    rw [Artifacts.without_append, Artifacts.without_append, h.world]
  visited := by
    unfold Pass.plus
    rw [List.map_append, List.map_append, h.visited]
  outcomes := by
    unfold Pass.plus
    rw [otherOutcomes_append, otherOutcomes_append, h.outcomes]
  diagnostics := by
    unfold Pass.plus
    rw [otherDiagnostics_append, otherDiagnostics_append, h.diagnostics]

/-- Whatever a visit adds for a type with the one artifact, it adds nothing else. -/
lemma Pass.AlikeBut.plus_aside (h : pass.AlikeBut u name s pass') {e : DeclaringType × FieldSet}
    (he : e ∈ s.entries) (hname : (u.driver.helperName e.1).artifact = name)
    (start start' : Pass Artifacts) :
    (pass.plus e.1 (addition u t start e)).AlikeBut u name s
      (pass'.plus e.1 (addition u t' start' e)) := by
  have hworld : ∀ t start, (addition u t start e).artifacts.without name = [] := fun t start =>
    Artifacts.without_eq_nil fun a ha => (mem_artifacts_addition u t ha).trans hname
  have houtcome : ∀ o, otherOutcomes u name [(e.1, o)] = [] := fun o => by
    simp [otherOutcomes, hname]
  have hdiag : ∀ t start, otherDiagnostics u name (addition u t start e).diagnostics = [] := by
    intro t start
    refine List.filter_eq_nil_iff.2 fun x hx => ?_
    simp [Diagnostic.isForArtifact, subject_of_mem_addition u t hx, hname]
  refine ⟨?_, ?_, ?_, ?_, ?_⟩
  · intro c hc
    have hne : ¬e.1.same c = true := fun hs => hc e he hs hname
    rw [get?_plus, get?_plus, if_neg hne, if_neg hne, h.emitted c hc]
  · unfold Pass.plus
    rw [Artifacts.without_append, Artifacts.without_append, hworld, hworld, h.world]
  · unfold Pass.plus
    rw [List.map_append, List.map_append, h.visited]
    rfl
  · unfold Pass.plus
    rw [otherOutcomes_append, otherOutcomes_append, houtcome, houtcome, h.outcomes]
  · unfold Pass.plus
    rw [otherDiagnostics_append, otherDiagnostics_append, hdiag, hdiag, h.diagnostics]

lemma Clear.of_mem {e : DeclaringType × FieldSet} (he : e ∈ s.entries)
    (hname : (u.driver.helperName e.1).artifact ≠ name) : Clear u name s e.1 := by
  intro e' he' hs
  rwa [(Store.eq_of_mem_of_same he' he hs).1]

variable (hu : u.emitter = HelperText.emitter) (ht : ∀ other, other ≠ name → t.Agree t' other)

include hu ht

lemma Pass.AlikeBut.visit (h : pass.AlikeBut u name s pass') {e : DeclaringType × FieldSet}
    (he : e ∈ s.entries) :
    (pass.visit u t.sink e).AlikeBut u name s (pass'.visit u t'.sink e) := by
  rw [visit_eq_plus hu, visit_eq_plus hu]
  by_cases hname : (u.driver.helperName e.1).artifact = name
  · exact h.plus_aside he hname pass pass'
  · have hsame : addition u t pass e = addition u t' pass' e :=
      addition_congr (ht _ hname) (h.emitted e.1 (.of_mem he hname))
        (Artifacts.mem_names_of_without_eq h.world hname)
    rw [hsame]
    exact h.plus e.1 _

lemma Pass.AlikeBut.foldl (h : pass.AlikeBut u name s pass')
    {l : List (DeclaringType × FieldSet)} (hl : ∀ e ∈ l, e ∈ s.entries) :
    (l.foldl (Pass.visit u t.sink) pass).AlikeBut u name s
      (l.foldl (Pass.visit u t'.sink) pass') := by
  induction l generalizing pass pass' with
  | nil => exact h
  | cons e l ih =>
    rw [List.forall_mem_cons] at hl
    exact ih (h.visit hu ht hl.1) hl.2

/-! ### Rounds -/

omit hu ht in
/-- A type that is clear of an artifact was so before. -/
lemma Clear.of_extends {s' : Store} (hs : s.Extends s') {d : DeclaringType}
    (h : Clear u name s' d) : Clear u name s d := by
  rintro ⟨c, fields⟩ he hsame
  obtain ⟨fields', he', -⟩ := hs c fields he
  exact h (c, fields') he' hsame

/-- Where two runs stand that differ in one artifact. -/
structure Level (u : Setup) (name : String) (p p' : Processor) (w w' : Artifacts) : Prop where
  store : p.store = p'.store
  rounds : p.rounds = p'.rounds
  emitted : ∀ d, Clear u name p.store d → p.emitted.get? d = p'.emitted.get? d
  world : w.without name = w'.without name

variable {p p' : Processor} {w w' : Artifacts}

/-- The passes of one round, which start from stores that are equal. -/
lemma Level.partway (h : Level u name p p' w w') (r : Round) :
    p'.gathered u r = p.gathered u r ∧
      let visited := if u.emits r then (p.gathered u r).entries else []
      (partway u t.sink p w visited).AlikeBut u name (p.gathered u r)
        (partway u t'.sink p' w' visited) := by
  have hgathered : p'.gathered u r = p.gathered u r := by rw [gathered, gathered, h.store]
  have hstart : Pass.AlikeBut u name (p.gathered u r) ⟨p.emitted, w, [], []⟩
      ⟨p'.emitted, w', [], []⟩ :=
    ⟨fun d hd => h.emitted d (hd.of_extends (extends_gathered u p r)), h.world, rfl, rfl, rfl⟩
  refine ⟨hgathered, hstart.foldl hu ht fun e he => ?_⟩
  split at he
  · exact he
  · exact absurd he List.not_mem_nil

/-- **A round keeps the runs level**, and shows the same of all other types. -/
lemma Level.process (h : Level u name p p' w w') (r : Round) :
    let x := p.process u t.sink r w
    let x' := p'.process u t'.sink r w'
    Level u name x.processor x'.processor x.world x'.world ∧ x.AlikeBut u name x' := by
  intro x x'
  obtain ⟨hgathered, hpass⟩ := h.partway hu ht r
  dsimp only at hpass
  have hstore : x.processor.store = x'.processor.store := hgathered.symm
  have hworld : x.world.without name = x'.world.without name := by
    rw [process_world, process_world, hgathered]
    exact hpass.world
  have hrounds : x.processor.rounds = x'.processor.rounds := congrArg (· + 1) h.rounds
  refine ⟨⟨hstore, hrounds, fun d hd => ?_, hworld⟩, ⟨hstore, ?_, ?_, ?_, ?_, hworld⟩⟩
  · rw [process_emitted, process_emitted, hgathered]
    exact hpass.emitted d hd
  · unfold x x'
    simp only [process_eq]
    rw [h.store, h.rounds]
  · rw [process_outcomes, process_outcomes, hgathered]
    exact hpass.visited
  · rw [process_outcomes, process_outcomes, hgathered]
    exact hpass.outcomes
  · -- the elements are reported alike, so the two differ in what the passes say
    unfold x x'
    rw [process_diagnostics, process_diagnostics, hgathered, h.store, otherDiagnostics_append,
      hpass.diagnostics, ← otherDiagnostics_append]

lemma Level.steps (h : Level u name p p' w w') (rounds : List Round) :
    List.Forall₂ (Step.AlikeBut u name) (steps u t.sink p w rounds)
      (steps u t'.sink p' w' rounds) ∧
    let q := after u t.sink p w rounds
    let q' := after u t'.sink p' w' rounds
    Level u name q.1 q'.1 q.2 q'.2 := by
  induction rounds generalizing p p' w w' with
  | nil => exact ⟨.nil, h⟩
  | cons r rounds ih =>
    obtain ⟨hlevel, halike⟩ := h.process hu ht r
    obtain ⟨hsteps, hafter⟩ := ih hlevel
    exact ⟨.cons halike hsteps, hafter⟩

omit hu ht

/-- **The failures of one artifact stay with it.** Let two memory sinks treat all artifacts alike
but one. In every round the two runs take in the same records, visit the same types, and report
the same of all types with other artifacts, in the same order; only diagnostics about helpers
that would be this artifact may differ. In the end the other artifacts stand in the same order
and hold the same bytes. -/
theorem artifact_failures_isolated (settings : Settings) (resolver : Resolver) (name : String)
    (t t' : Treatment) (ht : ∀ other, other ≠ name → t.Agree t' other) (world : Artifacts)
    (rounds : List Round) :
    let u : Setup := ⟨settings, resolver, HelperText.emitter⟩
    let h := run u t.sink rounds world
    let h' := run u t'.sink rounds world
    List.Forall₂ (Step.AlikeBut u name) (steps u t.sink fresh world rounds)
        (steps u t'.sink fresh world rounds) ∧
      h.processor.store = h'.processor.store ∧
      otherDiagnostics u name h.diagnostics = otherDiagnostics u name h'.diagnostics ∧
      h.world.without name = h'.world.without name ∧
      ∀ other, other ≠ name → h.world.get? other = h'.world.get? other := by
  intro u h h'
  have hstart : Level u name fresh fresh world world := ⟨rfl, rfl, fun _ _ => rfl, rfl⟩
  obtain ⟨hsteps, hlevel⟩ := hstart.steps rfl ht rounds
  have hrun : h = _ := run_eq u t.sink rounds world
  have hrun' : h' = _ := run_eq u t'.sink rounds world
  have hdiag : ∀ {l l' : List (Step Artifacts)}, List.Forall₂ (Step.AlikeBut u name) l l' →
      otherDiagnostics u name (l.flatMap Step.diagnostics) =
        otherDiagnostics u name (l'.flatMap Step.diagnostics) := by
    intro l l' hl
    induction hl with
    | nil => rfl
    | cons hs _ ih =>
      rw [List.flatMap_cons, List.flatMap_cons, otherDiagnostics_append, otherDiagnostics_append,
        hs.diagnostics, ih]
  rw [hrun, hrun']
  refine ⟨hsteps, hlevel.store, hdiag hsteps, hlevel.world, fun other hother => ?_⟩
  rw [← Artifacts.get?_without hother, hlevel.world, Artifacts.get?_without hother]

/-- The helper of one class has no room in the first sink, and there all is well with the second
one. The class beside it is written all the same, and warned about when a field comes too late. -/
theorem artifact_failures_isolated_no_room :
    let bar := "a.Bar$$Icicle"
    let t : Treatment := ⟨fun _ => false, fun a => if a = bar then some 9 else none,
      fun _ => false⟩
    let u : Setup := ⟨.default, .constant .int, HelperText.emitter⟩
    let int : FieldType := .named "int"
    let rounds : List Round :=
      [⟨[⟨⟨"a", "Bar"⟩, "y", int, .empty⟩, ⟨⟨"a", "Foo"⟩, "x", int, .empty⟩], false⟩,
        ⟨[⟨⟨"a", "Foo"⟩, "z", int, .empty⟩], true⟩]
    let h := run u t.sink rounds []
    let h' := run u Treatment.kind.sink rounds []
    (∀ other, other ≠ bar → t.Agree .kind other) ∧
      List.Forall₂ (Step.AlikeBut u bar) (steps u t.sink fresh [] rounds)
        (steps u Treatment.kind.sink fresh [] rounds) ∧
      h.world.without bar = h'.world.without bar ∧
      otherDiagnostics u bar h.diagnostics = otherDiagnostics u bar h'.diagnostics ∧
      (otherDiagnostics u bar h.diagnostics).length = 1 ∧
      h.reports.map (·.emission.failed) = [1, 1] ∧
      h'.reports.map (·.emission.failed) = [0, 0] := by
  intro bar t u int rounds h h'
  have ht : ∀ other, other ≠ bar → t.Agree .kind other :=
    fun other hother => ⟨rfl, if_neg hother, rfl⟩
  obtain ⟨hsteps, -, hdiag, hworld, -⟩ :=
    artifact_failures_isolated .default (.constant .int) bar t .kind ht [] rounds
  refine ⟨ht, hsteps, hworld, hdiag, ?_, ?_, ?_⟩ <;> decide +kernel

end Processor

end SavedState
