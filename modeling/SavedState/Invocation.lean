import SavedState.Arguments
import SavedState.Summary

/-!
The generator as a command: words come in, and what is printed and a status go out. The status
is 2 where the run could not be done or its summary could not be written, else 1 if an error has
been reported, else 0.
-/

namespace SavedState

def Arguments.version : String := "icicle-gen 0.3.0"

def Arguments.usage : String :=
  "Usage: icicle-gen [--config <FILE>] [--out-dir <DIR>] [--suffix <SUFFIX>] " ++
    "[--reemit <POLICY>] [--dry-run] [-v] <MANIFESTS>..."

/-- What is left after a command: its status, the files, the world of the terminal, and why
nothing was run if nothing was. -/
structure Ending (σ : Type) where
  status : Nat
  tree : FileTree
  terminal : σ
  complaint : Option String

namespace Host

variable {σ : Type}

/-- Writes a summary and judges the run by it. -/
def conclude (s : Summary) (out diagnostics : Channel σ) (terminal : σ) : Nat × σ :=
  match (s.write out diagnostics).run.run terminal with
  | (.ok (), terminal) => (if s.hasErrors then 1 else 0, terminal)
  | (.error _, terminal) => (2, terminal)

def execute (host : Host) (a : Arguments) (out diagnostics : Channel σ) (terminal : σ) :
    Ending σ :=
  match host.run a with
  | (.error e, tree) => ⟨2, tree, terminal, some e.message⟩
  | (.ok s, tree) =>
    let (status, terminal) := conclude s out diagnostics terminal
    ⟨status, tree, terminal, none⟩

/-- Prints a line that was asked for; whether that works does not matter. -/
def tell (line : String) (out : Channel σ) (terminal : σ) : σ :=
  ((out.write (Text.bytes (line ++ "\n"))).run.run terminal).2

def invoke (host : Host) (words : List String) (out diagnostics : Channel σ) (terminal : σ) :
    Ending σ :=
  match Arguments.read words with
  | .ok a => host.execute a out diagnostics terminal
  | .error .versionWanted => ⟨0, host.tree, tell Arguments.version out terminal, none⟩
  | .error .helpWanted => ⟨0, host.tree, tell Arguments.usage out terminal, none⟩
  | .error _ => ⟨2, host.tree, terminal, some Arguments.usage⟩

end Host

end SavedState
