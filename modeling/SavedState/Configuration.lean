import SavedState.Arguments
import SavedState.Host
import SavedState.Layer.Environment
import SavedState.RunError
import SavedState.Toml.Document

/-!
The configuration of a run. It is laid together from the defaults, a file, the environment and
the command line, each over the ones before; only what comes out of that has to fit.
-/

namespace SavedState

namespace Layer.Value

def asText? : Value → Option String
  | text s => some s
  | _ => none

def asFlag? : Value → Option Bool
  | flag b => some b
  | _ => none

def asWord? {α : Type} (vocabulary : Vocabulary α) : Value → Option α
  | text word => vocabulary.read? word
  | _ => none

/-- A value that is read if it is there, and stands for a default if not. -/
def readOr {α : Type} (default : α) (read : Value → Option α) : Option Value → Option α
  | none => some default
  | some v => read v

end Layer.Value

namespace Settings

open Layer.Value

def keys : List String := ["suffix", "reemit", "validation_severity", "artifact_severity"]

/-- The settings with the values of some keys, if those fit. -/
def ofEntries? (entries : Layer.Table) : Option Settings := do
  let suffix ← readOr default.suffix asText? (entries.lookup "suffix")
  let reemit ← readOr default.reemit (asWord? ReemitPolicy.vocabulary) (entries.lookup "reemit")
  let validation ← readOr default.validationSeverity (asWord? Severity.vocabulary)
    (entries.lookup "validation_severity")
  let artifact ← readOr default.artifactSeverity (asWord? Severity.vocabulary)
    (entries.lookup "artifact_severity")
  return ⟨suffix, reemit, validation, artifact⟩

/-- Settings from a table, or from a list that gives the values in the order of the keys. -/
def ofLayer? : Layer.Value → Option Settings
  | .table entries => ofEntries? entries
  | .list items => ofEntries? (keys.zip items)
  | _ => none

end Settings

structure Configuration where
  outDir : String
  isDryRun : Bool
  processor : Settings
deriving DecidableEq, Repr

namespace Configuration

open Layer.Value

def default : Configuration := ⟨"generated", false, .default⟩

/-- The name of the settings file that is looked for where none is given. -/
def fileName : String := "icicle.toml"

def toLayer (c : Configuration) : Layer.Table :=
  [("out_dir", .text c.outDir), ("dry_run", .flag c.isDryRun),
    ("processor", .table
      [("suffix", .text c.processor.suffix), ("reemit", .text c.processor.reemit.word),
        ("validation_severity", .text c.processor.validationSeverity.word),
        ("artifact_severity", .text c.processor.artifactSeverity.word)])]

/-- What the command line gives; it cannot take back a dry run. -/
def overrides (a : Arguments) : Layer.Table :=
  let processor :=
    (a.suffix.map fun s => ("suffix", .text s)).toList ++
      (a.reemit.map fun p => ("reemit", .text p.word)).toList
  (a.outDir.map fun d => ("out_dir", .text d)).toList ++
    (if a.dryRun then [("dry_run", .flag true)] else []) ++
    if processor.isEmpty then [] else [("processor", .table processor)]

def ofLayer? (t : Layer.Table) : Option Configuration := do
  let outDir ← readOr default.outDir asText? (t.lookup "out_dir")
  let isDryRun ← readOr default.isDryRun asFlag? (t.lookup "dry_run")
  let processor ← readOr default.processor Settings.ofLayer? (t.lookup "processor")
  return ⟨outDir, isDryRun, processor⟩

/-- The settings file: the one that is asked for, or the first with the usual name in the
directories around. -/
def file? (host : Host) (a : Arguments) : Except RunError (Option (List UInt8)) :=
  match a.config with
  | some path =>
    match host.tree.file? host.base path with
    | some bytes => .ok (some bytes)
    | none => .error (.missingConfiguration path)
  | none => .ok (host.surroundings.findSome? fun place => host.tree.file? ⟨place, false⟩ fileName)

/-- The layer of a settings file; without one it is empty. -/
def fileLayer? : Option (List UInt8) → Option Layer.Table
  | none => some []
  | some bytes => (Text.ofBytes? bytes).bind Toml.read?

def load (host : Host) (a : Arguments) : Except RunError Configuration := do
  let file ← file? host a
  match fileLayer? file with
  | none => .error .configuration
  | some layer =>
    let layers := [layer, Layer.Environment.toLayer host.environment, overrides a]
    match ofLayer? (layers.foldl Layer.coverAll default.toLayer) with
    | some c => return c
    | none => .error .configuration

end Configuration

end SavedState
