import SavedState.Diagnostic
import SavedState.Sink.Basic

/-!
Writing the helper of one declaring type through a sink, and what is reported of it.
-/

namespace SavedState

structure ArtifactError where
  artifact : String
  source : IoError
deriving DecidableEq, Repr

def ArtifactError.message (e : ArtifactError) : String :=
  "impossible to create " ++ e.artifact ++ ": " ++ e.source.message

inductive Outcome where
  | written (artifact : String) (fields : Nat)
  /-- The helper was written in an earlier round. -/
  | skipped (artifact : String)
  | failed (artifact : String) (reason : String)
deriving DecidableEq, Repr

namespace Outcome

def artifact : Outcome → String
  | written artifact _ => artifact
  | skipped artifact => artifact
  | failed artifact _ => artifact

def isWritten : Outcome → Bool
  | written .. => true
  | _ => false

def isSkipped : Outcome → Bool
  | skipped .. => true
  | _ => false

def isFailed : Outcome → Bool
  | failed .. => true
  | _ => false

end Outcome

/-- The outcomes of one pass over the store, in the order of the visits. -/
structure EmissionReport where
  outcomes : List (DeclaringType × Outcome)
deriving DecidableEq, Repr

namespace EmissionReport

def count (r : EmissionReport) (p : Outcome → Bool) : Nat := r.outcomes.countP fun e => p e.2

def written (r : EmissionReport) : Nat := r.count Outcome.isWritten

def skipped (r : EmissionReport) : Nat := r.count Outcome.isSkipped

def failed (r : EmissionReport) : Nat := r.count Outcome.isFailed

def isEmpty (r : EmissionReport) : Bool := r.outcomes.isEmpty

def outcome? (r : EmissionReport) (d : DeclaringType) : Option Outcome :=
  (r.outcomes.find? fun e => e.1.same d).map (·.2)

end EmissionReport

/-- What every emission of a run has in common. -/
structure Driver where
  emitter : Emitter
  suffix : String
  severity : Severity

namespace Driver

variable {σ : Type}

def helperName (v : Driver) (d : DeclaringType) : HelperName := .of d v.suffix

/-- Creates, writes and flushes the helper of `d`; the first refusal ends it. -/
def perform (v : Driver) (sink : Sink σ) (d : DeclaringType) (fields : FieldSet) : Act σ Unit := do
  let channel ← sink.create (v.helperName d) d
  v.emitter d (v.helperName d) fields channel
  channel.flush

def write (v : Driver) (sink : Sink σ) (d : DeclaringType) (fields : FieldSet) (world : σ) :
    Except ArtifactError HelperName × σ :=
  match (v.perform sink d fields).run.run world with
  | (.ok (), world) => (.ok (v.helperName d), world)
  | (.error e, world) => (.error ⟨(v.helperName d).artifact, e⟩, world)

/-- The outcome for `d`, with the diagnostic that a failure gives. -/
def emit (v : Driver) (sink : Sink σ) (d : DeclaringType) (fields : FieldSet) (world : σ) :
    (Outcome × List Diagnostic) × σ :=
  match v.write sink d fields world with
  | (.ok helper, world) => ((.written helper.artifact fields.size, []), world)
  | (.error e, world) =>
    ((.failed (v.helperName d).artifact e.message, [⟨v.severity, .type d, e.message⟩]), world)

end Driver

end SavedState
