import SavedState.Configuration
import SavedState.HelperText
import SavedState.Manifest
import SavedState.Processor
import SavedState.Sink.Directory
import SavedState.Sink.Memory

/-!
Whole runs: a round for each manifest, with helpers that go to a directory, or to memory where
nothing is to be written. All manifests are read before anything is written, so a bad one leaves
the files as they are.
-/

namespace SavedState

namespace Manifest

/-- The directory that a path to a manifest leads through. -/
def directoryOf (path : String) : String :=
  match FilePath.parent? path with
  | none => "."
  | some up => if up = "" then "." else up

def load (host : Host) (path : String) : Except RunError Manifest :=
  match FilePath.fileName? path with
  | none => .error (.io path ⟨.invalidInput, "not a file path"⟩)
  | some name => do
    let up := directoryOf path
    let place ← (host.tree.openDirectory host.base up).mapError (.io up)
    let text ← (host.tree.readText ⟨place, true⟩ place name).mapError (.io path)
    (ofText text).mapError (.manifest path)

end Manifest

/-- A manifest as a round. -/
def Round.load (host : Host) (path : String) (isFinal : Bool) : Except RunError Round := do
  let m ← Manifest.load host path
  (m.toRound isFinal).mapError (.element path)

/-- The rounds of manifests, each with its path; the last one is final. -/
def Round.loadAll (host : Host) : List String → Except RunError (List (String × Round))
  | [] => .ok []
  | path :: paths => do
    let round ← Round.load host path paths.isEmpty
    let rounds ← loadAll host paths
    return (path, round) :: rounds

/-- What a run has done. -/
structure Summary where
  /-- The report of each round, with the path of its manifest. -/
  rounds : List (String × RoundReport)
  diagnostics : List Diagnostic
  /-- The paths of the files that were created, or the names of the artifacts that were not. -/
  artifacts : List String
  isDryRun : Bool
deriving DecidableEq, Repr

namespace Summary

def errors (s : Summary) : Nat := s.rounds.foldr (fun r n => r.2.errors + n) 0

def hasErrors (s : Summary) : Bool := 0 < s.errors

def ofHistory {σ : Type} (paths : List String) (h : Processor.History σ)
    (artifacts : List String) (isDryRun : Bool) : Summary :=
  ⟨paths.zip h.reports, h.diagnostics, artifacts, isDryRun⟩

end Summary

namespace Host

/-- Every type is judged by what a bundle can hold, and the helpers have the usual text. -/
def setup (settings : Settings) : Setup := ⟨settings, .bundle, HelperText.emitter⟩

def rehearse (settings : Settings) (rounds : List (String × Round)) : Summary :=
  let h := Processor.run (setup settings) Treatment.kind.sink (rounds.map (·.2)) []
  .ofHistory (rounds.map (·.1)) h h.world.names true

def generate (m : Medium) (settings : Settings) (directory : OutputDirectory)
    (rounds : List (String × Round)) (tree : FileTree) : Summary × FileTree :=
  let h := Processor.run (setup settings) (directory.sink m) (rounds.map (·.2)) ⟨tree, []⟩
  let artifacts := h.world.created.map fun e => FilePath.join directory.path e.1
  (.ofHistory (rounds.map (·.1)) h artifacts false, h.world.tree)

/-- The summary of a run, or why there is none, and the files after it. -/
def run (host : Host) (a : Arguments) : Except RunError Summary × FileTree :=
  match (do return (← Configuration.load host a, ← Round.loadAll host a.manifests)) with
  | .error e => (.error e, host.tree)
  | .ok (c, rounds) =>
    if c.isDryRun then (.ok (rehearse c.processor rounds), host.tree)
    else
      match (OutputDirectory.openAt host.base c.outDir).run.run host.tree with
      | (.error e, tree) => (.error (.io c.outDir e), tree)
      | (.ok directory, tree) =>
        let (summary, tree) := generate host.medium c.processor directory rounds tree
        (.ok summary, tree)

end Host

end SavedState
