import SavedState.Diagnostic

/-!
The settings of a processor.
-/

namespace SavedState

/-- What to do in a round with types whose helper has been written. -/
inductive ReemitPolicy where
  /-- Write each helper once and leave it alone after that. -/
  | skip
  /-- Try every type in every round and let the sink refuse. -/
  | attempt
  /-- Write nothing before the final round. -/
  | finalRound
deriving DecidableEq, Repr

namespace ReemitPolicy

def word : ReemitPolicy → String
  | skip => "skip"
  | attempt => "attempt"
  | finalRound => "final-round"

def vocabulary : Vocabulary ReemitPolicy :=
  ⟨"re-emit policy", [skip, attempt, finalRound].map fun p => (p.word, p),
    "; expected skip, attempt or final-round"⟩

end ReemitPolicy

structure Settings where
  suffix : String
  reemit : ReemitPolicy
  validationSeverity : Severity
  artifactSeverity : Severity
deriving DecidableEq, Repr

def Settings.default : Settings := ⟨"$$Icicle", .skip, .error, .error⟩

end SavedState
