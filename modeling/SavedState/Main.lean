import SavedState.Invocation
import SavedState.Sink.Memory

/-!
The command itself. It takes in the files that a run may look at, has the run done on those, and
then puts back what the run has changed.
-/

namespace SavedState.Command

def pathOf (place : Place) : String := "/" ++ "/".intercalate place

/-- Takes in what stands at a place. -/
def look (t : FileTree) (place : Place) : IO FileTree := do
  if (t.get? place).isSome then return t
  let path := (← IO.currentDir) / pathOf place
  if ← path.isDir then return t.put place .directory
  else if ← path.pathExists then return t.put place (.file (← IO.FS.readBinFile path).toList)
  else return t

/-- Takes in what stands along a path. -/
def lookAlong (start : Place) (t : FileTree) (path : String) : IO FileTree := do
  let mut t := t
  let mut place := if FilePath.isAbsolute path then [] else start
  for name in FilePath.parts path do
    if name = ".." then place := place.dropLast
    else if name ≠ "" ∧ name ≠ "." then
      place := place ++ [name]
      t ← look t place
  return t

/-- The variables of the process, if their bytes are text. -/
def environment : IO (List (String × String)) := do
  try
    let bytes ← IO.FS.readBinFile "/proc/self/environ"
    let text := (Text.ofBytes? bytes.toList).getD ""
    return (Text.parts '\x00' text.toList).map fun entry =>
      (String.ofList (entry.takeWhile (· ≠ '=')),
        String.ofList ((entry.dropWhile (· ≠ '=')).drop 1))
  catch _ => return []

/-- The host with all files that bear on a run. What the run makes where nothing is known to be
tells which places there are still to look at. -/
def survey (words : List String) : IO Host := do
  let here := (FilePath.parts (← IO.currentDir).toString).filter fun name => name ≠ ""
  let host : Host := ⟨[], here, ← environment, .willing⟩
  match Arguments.read words with
  | .error _ => return host
  | .ok a => do
    let mut t := host.tree
    for place in host.surroundings.reverse do
      if place ≠ [] then t ← look t place
      t ← look t (place ++ [Configuration.fileName])
    for path in a.config.toList ++ a.manifests do
      t ← lookAlong here t path
    match Configuration.load { host with tree := t } a with
    | .error _ => return { host with tree := t }
    | .ok c => do
      t ← lookAlong here t c.outDir
      for e in ({ host with tree := t }.run a).2 do
        t ← look t e.1
      return { host with tree := t }

/-- Puts back what differs between two trees. -/
def restore (before after : FileTree) : IO Unit := do
  for (place, entry) in after do
    if before.get? place ≠ some entry then
      match entry with
      | .directory => IO.FS.createDir (pathOf place)
      | .file bytes => IO.FS.writeBinFile (pathOf place) ⟨bytes.toArray⟩

/-- The channels of a terminal, which are printed in the end. -/
def screen : Artifacts := [("out", []), ("diagnostics", [])]

def print (stream : IO.FS.Stream) (terminal : Artifacts) (name : String) : IO Unit := do
  stream.write ⟨((terminal.get? name).getD []).toArray⟩
  stream.flush

def perform (words : List String) : IO UInt32 := do
  let host ← survey words
  let channel := Treatment.kind.channel
  let ending := host.invoke words (channel "out") (channel "diagnostics") screen
  restore host.tree ending.tree
  print (← IO.getStderr) ending.terminal "diagnostics"
  print (← IO.getStdout) ending.terminal "out"
  match ending.complaint with
  | some complaint => (← IO.getStderr).putStrLn complaint
  | none => pure ()
  return ending.status.toUInt32

end SavedState.Command

/-- Trouble outside of the run counts as a run that could not be done. -/
def main (words : List String) : IO UInt32 := do
  try SavedState.Command.perform words
  catch e => do
    (← IO.getStderr).putStrLn e.toString
    return 2
