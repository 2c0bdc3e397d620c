import SavedState.FileTree

/-!
What a run finds around it: files, a working directory among them, variables of the environment,
and how files take bytes. All of it is there for the run alone: nothing changes but by what the run
does.
-/

namespace SavedState

structure Host where
  tree : FileTree
  workingDirectory : Place
  /-- The variables in the order in which the process lists them. -/
  environment : List (String × String)
  medium : Medium := .willing

namespace Host

/-- Paths start at the working directory and may lead anywhere. -/
def base (h : Host) : Base := ⟨h.workingDirectory, false⟩

/-- The working directory and all directories above it, from the inside out. -/
def surroundings (h : Host) : List Place :=
  let n := h.workingDirectory.length
  (List.range (n + 1)).map fun i => h.workingDirectory.take (n - i)

end Host

end SavedState
