import SavedState.Sink.Basic
import SavedState.Text.Utf8

/-!
A sink that keeps artifacts in memory, in the order of their creation. It can be told to refuse
artifacts by name, to stop taking bytes at a limit, and to refuse a flush; without such orders
it refuses nothing but a second artifact of one name.
-/

namespace SavedState

/-- How a memory sink treats the artifacts it is asked for. -/
structure Treatment where
  failing : String → Bool
  limit : String → Option Nat
  refusesFlush : String → Bool

def Treatment.kind : Treatment := ⟨fun _ => false, fun _ => none, fun _ => false⟩

/-- The artifacts created so far with the bytes they hold. -/
abbrev Artifacts := List (String × List UInt8)

namespace Artifacts

def names (a : Artifacts) : List String := a.map (·.1)

def get? (a : Artifacts) (name : String) : Option (List UInt8) := a.lookup name

/-- Adds bytes to the end of an artifact. -/
def extend (a : Artifacts) (name : String) (bytes : List UInt8) : Artifacts :=
  a.map fun e => if e.1 = name then (e.1, e.2 ++ bytes) else e

end Artifacts

namespace Treatment

/-- How many more bytes an artifact takes that holds `size` already. -/
def room (t : Treatment) (name : String) (size : Nat) : Option Nat :=
  (t.limit name).map (· - size)

/-- Takes as many of the bytes as there is room for. -/
def write (t : Treatment) (name : String) (bytes : List UInt8) : Act Artifacts Unit := do
  let artifacts ← get
  match t.room name ((artifacts.get? name).getD []).length with
  | none => set (artifacts.extend name bytes)
  | some n => do
    set (artifacts.extend name (bytes.take n))
    if n < bytes.length then throw ⟨.other, "write limit reached"⟩

def flush (t : Treatment) (name : String) : Act Artifacts Unit :=
  if t.refusesFlush name then throw ⟨.other, "flush refused"⟩ else pure ()

def channel (t : Treatment) (name : String) : Channel Artifacts := ⟨t.write name, t.flush name⟩

def create (t : Treatment) (helper : HelperName) : Act Artifacts (Channel Artifacts) := do
  let name := helper.artifact
  let artifacts ← get
  if t.failing name then throw ⟨.other, "simulated failure creating " ++ name⟩
  if artifacts.names.contains name then
    throw ⟨.alreadyExists, "artifact " ++ name ++ " already exists"⟩
  set (artifacts ++ [(name, [])])
  return t.channel name

/-- The memory sink that treats artifacts as told. -/
def sink (t : Treatment) : Sink Artifacts := ⟨fun helper _ => t.create helper⟩

end Treatment

end SavedState
