import SavedState.Collection
import SavedState.Emission
import SavedState.Settings

/-!
Rounds. Each one first takes in its elements, all of them before any helper is touched, and then
visits every stored type in store order. Store and emitted types live on from round to round.
-/

namespace SavedState

/-- The types whose helper has been written, in that order, each with the number of its records
that are either in the helper or have been warned about. -/
abbrev Emitted := List (DeclaringType × Nat)

namespace Emitted

def get? (l : Emitted) (d : DeclaringType) : Option Nat :=
  (l.find? fun e => e.1.same d).map (·.2)

/-- Sets the number of a type; a new type goes to the end. -/
def put (d : DeclaringType) (n : Nat) : Emitted → Emitted
  | [] => [(d, n)]
  | e :: es => if e.1.same d then (e.1, n) :: es else e :: put d n es

end Emitted

structure RoundReport where
  round : Nat
  candidates : Nat
  rejected : Nat
  tally : Tally
  emission : EmissionReport
  errors : Nat
  warnings : Nat
deriving DecidableEq, Repr

/-- What the rounds of a processor share besides its settings. -/
structure Setup where
  settings : Settings
  resolver : Resolver
  emitter : Emitter

def Setup.driver (u : Setup) : Driver :=
  ⟨u.emitter, u.settings.suffix, u.settings.artifactSeverity⟩

/-- How a warning about late records begins. -/
def lateWords : String :=
  "helper already generated; fields added in a later round are not persisted: "

structure Processor where
  store : Store
  emitted : Emitted
  rounds : Nat

namespace Processor

variable {σ : Type}

def fresh : Processor := ⟨.empty, [], 0⟩

/-- How far a pass over the store has come. -/
structure Pass (σ : Type) where
  emitted : Emitted
  world : σ
  outcomes : List (DeclaringType × Outcome)
  diagnostics : List Diagnostic

/-- The warning that names records which came too late for the helper of `d`. -/
def lateNotice (d : DeclaringType) (records : List FieldRecord) : Diagnostic :=
  ⟨.warning, .type d, lateWords ++ ", ".intercalate (records.map FieldRecord.name)⟩

/-- Leaves a written helper alone and warns about records that came too late for it. -/
def Pass.skip (u : Setup) (pass : Pass σ) (d : DeclaringType) (fields : FieldSet) (known : Nat) :
    Pass σ :=
  let outcome := Outcome.skipped (u.driver.helperName d).artifact
  let pass := { pass with outcomes := pass.outcomes ++ [(d, outcome)] }
  if known < fields.size then
    { pass with
      emitted := pass.emitted.put d fields.size
      diagnostics := pass.diagnostics ++ [lateNotice d (fields.toList.drop known)] }
  else pass

def Pass.emit (u : Setup) (sink : Sink σ) (pass : Pass σ) (d : DeclaringType)
    (fields : FieldSet) : Pass σ :=
  let ((outcome, diagnostics), world) := u.driver.emit sink d fields pass.world
  { emitted := if outcome.isWritten then pass.emitted.put d fields.size else pass.emitted
    world
    outcomes := pass.outcomes ++ [(d, outcome)]
    diagnostics := pass.diagnostics ++ diagnostics }

def Pass.visit (u : Setup) (sink : Sink σ) (pass : Pass σ) (entry : DeclaringType × FieldSet) :
    Pass σ :=
  match if u.settings.reemit = .attempt then none else pass.emitted.get? entry.1 with
  | some known => pass.skip u entry.1 entry.2 known
  | none => pass.emit u sink entry.1 entry.2

/-- Visits every stored type, unless that has to wait for the final round. -/
def emission (u : Setup) (sink : Sink σ) (store : Store) (emitted : Emitted) (isFinal : Bool)
    (world : σ) : Pass σ :=
  let start : Pass σ := ⟨emitted, world, [], []⟩
  if u.settings.reemit = .finalRound ∧ isFinal = false then start
  else store.entries.foldl (Pass.visit u sink) start

/-- What one round leaves behind. -/
structure Step (σ : Type) where
  processor : Processor
  world : σ
  report : RoundReport
  diagnostics : List Diagnostic

def process (u : Setup) (sink : Sink σ) (p : Processor) (round : Round) (world : σ) : Step σ :=
  let kept := eligible round.elements
  let collected := p.store.collect u.resolver kept
  let pass := emission u sink collected.store p.emitted round.isFinal world
  let told := Counting.fresh.reportAll (rejections u.settings.validationSeverity round.elements)
  let told := (told.reportAll collected.diagnostics).reportAll pass.diagnostics
  { processor := ⟨collected.store, pass.emitted, p.rounds + 1⟩
    world := pass.world
    report :=
      { round := p.rounds + 1
        candidates := round.elements.length
        rejected := round.elements.length - kept.length
        tally := collected.tally
        emission := ⟨pass.outcomes⟩
        errors := told.errors
        warnings := told.warnings }
    diagnostics := told.passedOn }

/-- A round tells of its elements first, and counts what it tells. -/
theorem process_eq (u : Setup) (sink : Sink σ) (p : Processor) (round : Round) (world : σ) :
    let kept := eligible round.elements
    let collected := p.store.collect u.resolver kept
    let pass := emission u sink collected.store p.emitted round.isFinal world
    let diagnostics :=
      rejections u.settings.validationSeverity round.elements ++ collected.diagnostics ++
        pass.diagnostics
    p.process u sink round world =
      { processor := ⟨collected.store, pass.emitted, p.rounds + 1⟩
        world := pass.world
        report :=
          { round := p.rounds + 1
            candidates := round.elements.length
            rejected := round.elements.length - kept.length
            tally := collected.tally
            emission := ⟨pass.outcomes⟩
            errors := Diagnostic.count .error diagnostics
            warnings := Diagnostic.count .warning diagnostics }
        diagnostics } := by
  unfold process
  simp only [Counting.reportAll_eq, Counting.fresh, Diagnostic.count_append, List.nil_append,
    Nat.zero_add]

/-- The counters of a round are right. -/
theorem process_counts (u : Setup) (sink : Sink σ) (p : Processor) (round : Round) (world : σ) :
    let s := p.process u sink round world
    s.report.errors = Diagnostic.count .error s.diagnostics ∧
      s.report.warnings = Diagnostic.count .warning s.diagnostics := by
  intro s
  unfold s
  rw [process_eq]
  exact ⟨rfl, rfl⟩

/-- A whole run: the reports and all diagnostics of the rounds, and the world in the end. -/
structure History (σ : Type) where
  processor : Processor
  world : σ
  reports : List RoundReport
  diagnostics : List Diagnostic

def History.next (u : Setup) (sink : Sink σ) (h : History σ) (round : Round) : History σ :=
  let step := h.processor.process u sink round h.world
  ⟨step.processor, step.world, h.reports ++ [step.report], h.diagnostics ++ step.diagnostics⟩

def run (u : Setup) (sink : Sink σ) (rounds : List Round) (world : σ) : History σ :=
  rounds.foldl (History.next u sink) ⟨fresh, world, [], []⟩

end Processor

end SavedState
