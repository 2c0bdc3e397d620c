import SavedState.FieldRecord
import SavedState.HelperName

/-!
Where helpers go. A sink opens a channel for each new artifact, and a channel takes bytes; both
work on a world of type `σ` and may refuse at any call. What a refused call has changed stays
changed.
-/

namespace SavedState

inductive IoKind where
  | notFound
  | alreadyExists
  | notADirectory
  | isADirectory
  | permissionDenied
  | invalidFilename
  | invalidInput
  | invalidData
  | other
deriving DecidableEq, Repr

structure IoError where
  kind : IoKind
  message : String
deriving DecidableEq, Repr

/-- An action on a world, which it leaves changed also where it fails. -/
abbrev Act (σ : Type) := ExceptT IoError (StateM σ)

namespace Act

variable {σ α β : Type}

theorem run_bind (x : Act σ α) (f : α → Act σ β) (world : σ) :
    (x >>= f).run.run world =
      match x.run.run world with
      | (.ok a, world) => (f a).run.run world
      | (.error e, world) => (.error e, world) := by
  change ExceptT.bindCont f (x.run.run world).1 (x.run.run world).2 = _
  cases x.run.run world with
  | mk r w => cases r <;> rfl

theorem run_tryCatch (x : Act σ α) (f : IoError → Act σ α) (world : σ) :
    (tryCatch x f).run.run world =
      match x.run.run world with
      | (.ok a, world) => (.ok a, world)
      | (.error e, world) => (f e).run.run world := by
  change ExceptT.tryCatch x f world = _
  unfold ExceptT.tryCatch
  cases h : x.run.run world with
  | mk r w =>
    have h : x world = (r, w) := h
    cases r <;> simp [ExceptT.mk, bind, StateT.bind, h] <;> rfl

@[simp] theorem run_liftExcept (x : Except IoError α) (world : σ) :
    (liftExcept x : Act σ α).run.run world = (x, world) := by
  cases x <;> rfl

@[simp] theorem run_get (world : σ) : (get : Act σ σ).run.run world = (.ok world, world) := rfl

@[simp] theorem run_set (next world : σ) :
    (set next : Act σ PUnit).run.run world = (.ok (), next) := rfl

@[simp] theorem run_modify (f : σ → σ) (world : σ) :
    (modify f : Act σ PUnit).run.run world = (.ok (), f world) := rfl

end Act

structure Channel (σ : Type) where
  write : List UInt8 → Act σ Unit
  flush : Act σ Unit

structure Sink (σ : Type) where
  create : HelperName → DeclaringType → Act σ (Channel σ)

/-- Writes the text of a helper, whatever the world of its channel is. -/
abbrev Emitter := DeclaringType → HelperName → FieldSet → {σ : Type} → Channel σ → Act σ Unit

end SavedState
