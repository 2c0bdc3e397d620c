import Mathlib.Data.List.TakeDrop
import Mathlib.Tactic.Common
import SavedState.Emission
import SavedState.HelperText

/-!
What a helper leaves in a channel that it is written to.

A channel is told by where it keeps the bytes that it has taken, and by how many it takes at
most. The text of a helper goes into it whole, or up to the limit where it does not fit.
-/

namespace SavedState

/-! ### Limits -/

/-- Whether bytes stay within a limit, if there is one. -/
def IsWithin (limit : Option Nat) (bytes : List UInt8) : Prop := ∀ n ∈ limit, bytes.length ≤ n

instance (limit : Option Nat) (bytes : List UInt8) : Decidable (IsWithin limit bytes) :=
  match limit with
  | none => isTrue fun _ h => nomatch h
  | some n => decidable_of_iff (bytes.length ≤ n) (by simp [IsWithin])

/-- What is left of bytes within a limit. -/
def cut (limit : Option Nat) (bytes : List UInt8) : List UInt8 :=
  match limit with
  | none => bytes
  | some n => bytes.take n

@[simp] lemma isWithin_none (bytes : List UInt8) : IsWithin none bytes := fun _ h => nomatch h

lemma isWithin_some {n : Nat} {bytes : List UInt8} :
    IsWithin (some n) bytes ↔ bytes.length ≤ n := by
  simp [IsWithin]

lemma isWithin_nil (limit : Option Nat) : IsWithin limit [] := fun _ _ => Nat.zero_le _

lemma IsWithin.cut_eq {limit : Option Nat} {bytes : List UInt8} (h : IsWithin limit bytes) :
    cut limit bytes = bytes := by
  cases limit with
  | none => rfl
  | some n => exact List.take_of_length_le (isWithin_some.1 h)

lemma prefix_cut (limit : Option Nat) (bytes : List UInt8) : cut limit bytes <+: bytes := by
  cases limit with
  | none => exact List.prefix_refl bytes
  | some n => exact List.take_prefix n bytes

/-- What fits is what a limit leaves whole. -/
lemma cut_eq_iff {limit : Option Nat} {bytes : List UInt8} :
    cut limit bytes = bytes ↔ IsWithin limit bytes := by
  refine ⟨fun h => ?_, IsWithin.cut_eq⟩
  cases limit with
  | none => exact isWithin_none bytes
  | some n => exact isWithin_some.2 ((List.take_eq_self_iff bytes).1 h)

/-- What overruns a limit overruns it with more behind, and is cut at the same place. -/
lemma cut_append_of_not_isWithin {limit : Option Nat} {bytes : List UInt8}
    (h : ¬IsWithin limit bytes) (more : List UInt8) :
    ¬IsWithin limit (bytes ++ more) ∧ cut limit (bytes ++ more) = cut limit bytes := by
  cases limit with
  | none => exact absurd (isWithin_none bytes) h
  | some n =>
    rw [isWithin_some, Nat.not_le] at h
    constructor
    · rw [isWithin_some, List.length_append]
      omega
    · exact List.take_append_of_le_length (Nat.le_of_lt h)

/-! ### Channels -/

variable {σ : Type}

/-- Channel `c` takes bytes up to the limit and keeps them in `keep`. The byte that goes beyond it
is refused with `e`, and leaves the channel `broken`. -/
def Channel.Breaks (c : Channel σ) (limit : Option Nat) (e : IoError)
    (keep broken : List UInt8 → σ) : Prop :=
  ∀ held bytes, IsWithin limit held → (c.write bytes).run.run (keep held) =
    if IsWithin limit (held ++ bytes) then (.ok (), keep (held ++ bytes))
    else (.error e, broken (cut limit (held ++ bytes)))

/-- Pieces that are written one after another are taken like one, and none is written to a channel
that is broken. -/
lemma Channel.Breaks.forM {c : Channel σ} {limit : Option Nat} {e : IoError}
    {keep broken : List UInt8 → σ} (h : c.Breaks limit e keep broken) {α : Type}
    (piece : α → List UInt8) (l : List α) {held : List UInt8} (hf : IsWithin limit held) :
    (l.forM fun a => c.write (piece a)).run.run (keep held) =
      if IsWithin limit (held ++ l.flatMap piece) then (.ok (), keep (held ++ l.flatMap piece))
      else (.error e, broken (cut limit (held ++ l.flatMap piece))) := by
  induction l generalizing held with
  | nil =>
    rw [List.flatMap_nil, List.append_nil, if_pos hf]
    rfl
  | cons a l ih =>
    change (c.write (piece a) >>= fun _ => l.forM fun a => c.write (piece a)).run.run _ = _
    rw [List.flatMap_cons, ← List.append_assoc, Act.run_bind, h held (piece a) hf]
    by_cases hfit : IsWithin limit (held ++ piece a)
    · rw [if_pos hfit]
      exact ih hfit
    · -- the piece that does not fit is cut, and the ones behind it change nothing of that
      obtain ⟨hover, hcut⟩ := cut_append_of_not_isWithin hfit (l.flatMap piece)
      rw [if_neg hfit, if_neg hover, hcut]

/-- What channel `c` has taken is kept in `keep`. It takes no more than the limit, and then fails
with `e`. -/
def Channel.Keeps (c : Channel σ) (limit : Option Nat) (e : IoError) (keep : List UInt8 → σ) :
    Prop :=
  ∀ held bytes, IsWithin limit held → (c.write bytes).run.run (keep held) =
    (if IsWithin limit (held ++ bytes) then .ok () else .error e, keep (cut limit (held ++ bytes)))

/-- What a channel keeps it keeps also when it breaks. -/
lemma Channel.Keeps.breaks {c : Channel σ} {limit : Option Nat} {e : IoError}
    {keep : List UInt8 → σ} (h : c.Keeps limit e keep) : c.Breaks limit e keep keep := by
  intro held bytes hf
  rw [h held bytes hf]
  by_cases hfit : IsWithin limit (held ++ bytes)
  · rw [if_pos hfit, if_pos hfit, hfit.cut_eq]
  · rw [if_neg hfit, if_neg hfit]

lemma Channel.Keeps.forM {c : Channel σ} {limit : Option Nat} {e : IoError}
    {keep : List UInt8 → σ} (h : c.Keeps limit e keep) {α : Type} (piece : α → List UInt8)
    (l : List α) {held : List UInt8} (hf : IsWithin limit held) :
    (l.forM fun a => c.write (piece a)).run.run (keep held) =
      (if IsWithin limit (held ++ l.flatMap piece) then .ok () else .error e,
        keep (cut limit (held ++ l.flatMap piece))) := by
  rw [h.breaks.forM piece l hf]
  by_cases hfit : IsWithin limit (held ++ l.flatMap piece)
  · rw [if_pos hfit, if_pos hfit, hfit.cut_eq]
  · rw [if_neg hfit, if_neg hfit]

/-- A channel that takes whatever is written to it. -/
def Channel.unlimited : Channel (List UInt8) := ⟨fun bytes => modify (· ++ bytes), return ()⟩

lemma Channel.unlimited_keeps (e : IoError) : Channel.unlimited.Keeps none e id := by
  intro held bytes _
  rw [if_pos (isWithin_none _)]
  rfl

/-! ### Texts -/

/-- Lines that are written one after another make the bytes of one text. -/
lemma Text.bytes_lines (l : List String) : bytes (String.join (l.map (· ++ "\n"))) =
    l.flatMap fun line => bytes (line ++ "\n") := by
  induction l with
  | nil => rfl
  | cons line l ih => rw [List.map_cons, String.join_cons, bytes_append, ih, List.flatMap_cons]

/-- All that is written of a helper where nothing limits it. -/
def Emitter.whole (emitter : Emitter) (d : DeclaringType) (helper : HelperName)
    (fields : FieldSet) : List UInt8 :=
  ((emitter d helper fields Channel.unlimited).run.run []).2

namespace HelperText

variable (d : DeclaringType) (helper : HelperName) (fields : FieldSet)

lemma whole_eq_flatMap : emitter.whole d helper fields =
    (lines d helper fields).flatMap fun line => Text.bytes (line ++ "\n") := by
  have h := (Channel.unlimited_keeps ⟨.other, ""⟩).forM (fun line => Text.bytes (line ++ "\n"))
    (lines d helper fields) (isWithin_nil none)
  rw [List.nil_append] at h
  exact congrArg Prod.snd h

/-- What is written is the text, byte for byte. -/
lemma whole_eq : emitter.whole d helper fields = Text.bytes (text d helper fields) := by
  rw [whole_eq_flatMap, text, Text.bytes_lines]

/-- A helper is written as far as it fits, and nothing is written to a channel that is broken. -/
lemma run_emitter_of_breaks {c : Channel σ} {limit : Option Nat} {e : IoError}
    {keep broken : List UInt8 → σ} (h : c.Breaks limit e keep broken) :
    (emitter d helper fields c).run.run (keep []) =
      if IsWithin limit (emitter.whole d helper fields) then
        (.ok (), keep (emitter.whole d helper fields))
      else (.error e, broken (cut limit (emitter.whole d helper fields))) := by
  rw [whole_eq_flatMap]
  exact h.forM _ _ (isWithin_nil limit)

lemma run_emitter {c : Channel σ} {limit : Option Nat} {e : IoError} {keep : List UInt8 → σ}
    (h : c.Keeps limit e keep) :
    (emitter d helper fields c).run.run (keep []) =
      (if IsWithin limit (emitter.whole d helper fields) then .ok () else .error e,
        keep (cut limit (emitter.whole d helper fields))) := by
  rw [whole_eq_flatMap]
  exact h.forM _ _ (isWithin_nil limit)

end HelperText

/-! ### Outcomes -/

namespace Driver

variable {v : Driver} {sink : Sink σ} {d : DeclaringType} {fields : FieldSet} {world world' : σ}

lemma emit_of_ok (h : (v.perform sink d fields).run.run world = (.ok (), world')) :
    v.emit sink d fields world =
      ((.written (v.helperName d).artifact fields.size, []), world') := by
  unfold emit write
  rw [h]

lemma emit_of_error {e : IoError}
    (h : (v.perform sink d fields).run.run world = (.error e, world')) :
    v.emit sink d fields world =
      ((.failed (v.helperName d).artifact (ArtifactError.message ⟨(v.helperName d).artifact, e⟩),
        [⟨v.severity, .type d, ArtifactError.message ⟨(v.helperName d).artifact, e⟩⟩]),
        world') := by
  unfold emit write
  rw [h]

variable (fields)

/-- A helper that cannot be created is not written either. -/
lemma perform_of_not_created {e : IoError}
    (h : (sink.create (v.helperName d) d).run.run world = (.error e, world')) :
    (v.perform sink d fields).run.run world = (.error e, world') := by
  unfold perform
  rw [Act.run_bind, h]

/-- What is left to do for a helper that has been created. -/
lemma perform_of_created {c : Channel σ}
    (h : (sink.create (v.helperName d) d).run.run world = (.ok c, world')) :
    (v.perform sink d fields).run.run world =
      (v.emitter d (v.helperName d) fields c >>= fun _ => c.flush).run.run world' := by
  unfold perform
  rw [Act.run_bind, h]

end Driver

end SavedState
