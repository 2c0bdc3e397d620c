import SavedState.Run

/-!
A summary as lines for a terminal: the diagnostics on one channel, and then the rounds and the
artifacts on another. The first refusal of a channel ends it all.
-/

namespace SavedState.Summary

variable {σ : Type}

def roundLine (path : String) (r : RoundReport) : String :=
  "round " ++ r.round.repr ++ " (" ++ path ++ "): " ++ r.candidates.repr ++ " candidates, " ++
    r.rejected.repr ++ " rejected, " ++ r.tally.unresolved.repr ++ " unresolved; " ++
    r.emission.written.repr ++ " written, " ++ r.emission.skipped.repr ++ " skipped, " ++
    r.emission.failed.repr ++ " failed"

def diagnosticLines (s : Summary) : List String := s.diagnostics.map Diagnostic.render

def progressLines (s : Summary) : List String :=
  let verb := if s.isDryRun then "would write " else "wrote "
  s.rounds.map (fun r => roundLine r.1 r.2) ++ s.artifacts.map fun a => verb ++ a

def writeLines (channel : Channel σ) : List String → Act σ Unit
  | [] => return ()
  | line :: lines => do
    channel.write (Text.bytes (line ++ "\n"))
    writeLines channel lines

def write (s : Summary) (out diagnostics : Channel σ) : Act σ Unit := do
  writeLines diagnostics s.diagnosticLines
  writeLines out s.progressLines

end SavedState.Summary
