import SavedState.Eligibility
import SavedState.Store

/-!
Turning eligible elements into records and filing them in the store. An element whose type the
resolver refuses is reported as an error and leaves no trace.
-/

namespace SavedState

def Element.build (resolver : Resolver) (e : Element) : Except Unsupported FieldRecord := do
  let accessor ← resolver e.type
  return .of e.enclosing e.name e.type accessor

/-- What became of the elements of one round. -/
structure Tally where
  inserted : Nat
  duplicates : Nat
  unresolved : Nat
deriving DecidableEq, Repr

structure Collected where
  store : Store
  tally : Tally
  diagnostics : List Diagnostic

namespace Collected

def start (store : Store) : Collected := ⟨store, ⟨0, 0, 0⟩, []⟩

def file (resolver : Resolver) (c : Collected) (e : Element) : Collected :=
  match e.build resolver with
  | .ok r =>
    if c.store.holds e.enclosing r then
      { c with tally.duplicates := c.tally.duplicates + 1 }
    else
      { c with store := c.store.insert e.enclosing r, tally.inserted := c.tally.inserted + 1 }
  | .error err =>
    { c with
      tally.unresolved := c.tally.unresolved + 1
      diagnostics := c.diagnostics ++ [⟨.error, .ofElement e, err.message⟩] }

end Collected

/-- Files elements one after another into a store. -/
def Store.collect (resolver : Resolver) (store : Store) (elements : List Element) : Collected :=
  elements.foldl (Collected.file resolver) (.start store)

end SavedState
