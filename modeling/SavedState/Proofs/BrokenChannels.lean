import SavedState.Proofs.Writing

/-!
Channels that fail in the middle of a helper.

A channel takes so many bytes and refuses the next one. The byte may stand anywhere, inside a
character too. What has been delivered by then is a prefix of the text, nothing follows it, and the
refusal is reported once.
-/

namespace SavedState

variable {σ : Type}

/-- A channel that takes its bytes one after another, until one of them is refused. -/
def Channel.bytewise (take : UInt8 → Act σ Unit) : Channel σ :=
  ⟨fun bytes => bytes.forM take, return ()⟩

/-- A channel breaks at the byte at which it refuses. -/
lemma Channel.bytewise_breaks {take : UInt8 → Act σ Unit} {n : Nat} {e : IoError}
    {keep broken : List UInt8 → σ}
    (htake : ∀ held b, held.length < n →
      (take b).run.run (keep held) = (.ok (), keep (held ++ [b])))
    (hrefuse : ∀ held b, held.length = n →
      (take b).run.run (keep held) = (.error e, broken held)) :
    (Channel.bytewise take).Breaks (some n) e keep broken := by
  intro held bytes hf
  induction bytes generalizing held with
  | nil =>
    rw [List.append_nil, if_pos hf]
    rfl
  | cons b bytes ih =>
    change (take b >>= fun _ => bytes.forM take).run.run (keep held) = _
    rw [Act.run_bind]
    rcases Nat.lt_or_eq_of_le (isWithin_some.1 hf) with hlt | heq
    · have hfit : IsWithin (some n) (held ++ [b]) := by
        rw [isWithin_some, List.length_append]
        exact hlt
      rw [htake held b hlt, show held ++ b :: bytes = held ++ [b] ++ bytes by simp]
      exact ih (held ++ [b]) hfit
    · have hover : ¬IsWithin (some n) (held ++ b :: bytes) := by
        rw [isWithin_some, List.length_append, List.length_cons]
        omega
      rw [hrefuse held b heq, if_neg hover, cut, List.take_left' heq]

/-- A channel that takes `n` bytes and refuses the next one with `e`. After that it takes whatever
is written to it. -/
def Channel.brittle (n : Nat) (e : IoError) : Channel (List UInt8 × Bool) :=
  .bytewise fun b => do
    let (held, broken) ← get
    if !broken && held.length == n then
      set (held, true)
      throw e
    else
      set (held ++ [b], broken)

lemma Channel.brittle_breaks (n : Nat) (e : IoError) :
    (Channel.brittle n e).Breaks (some n) e (·, false) (·, true) := by
  apply Channel.bytewise_breaks
  · intro held b hlt
    have hne : (held.length == n) = false := beq_false_of_ne (Nat.ne_of_lt hlt)
    rw [Act.run_bind, Act.run_get]
    simp only [hne, Bool.not_false, Bool.and_false, Bool.false_eq_true, if_false]
    rfl
  · intro held b heq
    rw [Act.run_bind, Act.run_get]
    simp only [heq, beq_self_eq_true, Bool.not_false, Bool.and_self, if_true]
    rfl

namespace HelperText

variable (d : DeclaringType) (helper : HelperName) (fields : FieldSet)

/-- **A failing channel gets a clean prefix.** A channel that takes `n` bytes of a helper and
refuses the next one has got the first `n` bytes of the text, and nothing is written to it after
that. Neither depends on how the text is cut into pieces. The refusal becomes one outcome and one
diagnostic. -/
theorem broken_channel_gets_prefix {c : Channel σ} {n : Nat} {e : IoError}
    {keep broken : List UInt8 → σ} (h : c.Breaks (some n) e keep broken) :
    let whole := emitter.whole d helper fields
    let result := if n < whole.length then Except.error e else .ok ()
    let world := (if n < whole.length then broken else keep) (whole.take (min n whole.length))
    whole = Text.bytes (text d helper fields) ∧
    (emitter d helper fields c).run.run (keep []) = (result, world) ∧
    (∀ pieces : List (List UInt8), pieces.flatten = whole →
      (pieces.forM c.write).run.run (keep []) = (result, world)) ∧
    ∀ (v : Driver) (sink : Sink σ) before, v.emitter = emitter → v.helperName d = helper →
      (sink.create helper d).run.run before = (.ok c, keep []) →
      let reason := "impossible to create " ++ helper.artifact ++ ": " ++ e.message
      (n < whole.length → v.emit sink d fields before =
        ((.failed helper.artifact reason, [⟨v.severity, .type d, reason⟩]), world)) ∧
      ∀ after, whole.length ≤ n → c.flush.run.run world = (.ok (), after) →
        v.emit sink d fields before = ((.written helper.artifact fields.size, []), after) := by
  intro whole result world
  have hcut : whole.take (min n whole.length) = whole.take n := by
    rw [← List.take_take, List.take_length]
  -- how a run ends that has written all of the text, in whichever pieces
  have hend : (if IsWithin (some n) whole then (.ok (), keep whole)
      else (.error e, broken (cut (some n) whole))) = (result, world) := by
    simp only [result, world, hcut]
    by_cases hn : n < whole.length
    · have hover : ¬IsWithin (some n) whole := fun h => Nat.not_le.2 hn (isWithin_some.1 h)
      rw [if_neg hover, if_pos hn, if_pos hn, cut]
    · rw [Nat.not_lt] at hn
      rw [if_pos (isWithin_some.2 hn), if_neg (Nat.not_lt.2 hn), if_neg (Nat.not_lt.2 hn),
        List.take_of_length_le hn]
  have hemitter : (emitter d helper fields c).run.run (keep []) = (result, world) :=
    (run_emitter_of_breaks d helper fields h).trans hend
  refine ⟨whole_eq d helper fields, hemitter, ?_, ?_⟩
  · intro pieces hpieces
    have hrun := h.forM id pieces (isWithin_nil (some n))
    rw [List.nil_append, List.flatMap_id, hpieces] at hrun
    exact hrun.trans hend
  · rintro v sink before hv rfl hcreate
    have hperform := Driver.perform_of_created fields hcreate
    rw [Act.run_bind, hv, hemitter] at hperform
    constructor
    · intro hn
      have hfailed : result = .error e := if_pos hn
      rw [hfailed] at hperform
      exact Driver.emit_of_error hperform
    · intro after hn hflush
      have hdone : result = .ok () := if_neg (Nat.not_lt.2 hn)
      rw [hdone] at hperform
      exact Driver.emit_of_ok (hperform.trans hflush)

/-- A channel that breaks inside the name of the package, between the two bytes of its letter. -/
theorem broken_channel_gets_prefix_inside_letter :
    let d : DeclaringType := ⟨"é", "A"⟩
    let helper : HelperName := .of d "$$Icicle"
    let e : IoError := ⟨.other, "broken pipe"⟩
    let v : Driver := ⟨emitter, "$$Icicle", .error⟩
    let sink : Sink (List UInt8 × Bool) := ⟨fun _ _ => return .brittle 55 e⟩
    let delivered := Text.bytes "// Generated code from Icicle. Do not modify!\npackage " ++ [0xc3]
    let reason := "impossible to create é.A$$Icicle: broken pipe"
    (Channel.brittle 55 e).Breaks (some 55) e (·, false) (·, true) ∧
      (emitter d helper .empty (.brittle 55 e)).run.run ([], false) =
        (.error e, (delivered, true)) ∧
      v.emit sink d .empty ([], false) =
        ((.failed "é.A$$Icicle" reason, [⟨.error, .type d, reason⟩]), (delivered, true)) := by
  intro d helper e v sink delivered reason
  have hbreaks := Channel.brittle_breaks 55 e
  have hshort : 55 < (emitter.whole d helper .empty).length ∧
      (emitter.whole d helper .empty).take (min 55 (emitter.whole d helper .empty).length) =
        delivered := by
    rw [whole_eq_flatMap]
    decide +kernel
  have hartifact : helper.artifact = "é.A$$Icicle" := by decide +kernel
  have hreason : "impossible to create " ++ helper.artifact ++ ": " ++ e.message = reason := by
    rw [hartifact]
    decide +kernel
  obtain ⟨-, hrun, -, hdriver⟩ := broken_channel_gets_prefix d helper .empty hbreaks
  have hfailed := (hdriver v sink ([], false) rfl rfl rfl).1 hshort.1
  rw [if_pos hshort.1, if_pos hshort.1, hshort.2] at hrun
  rw [if_pos hshort.1, hshort.2, hreason, hartifact] at hfailed
  exact ⟨hbreaks, hrun, hfailed⟩

end HelperText

end SavedState
