import Mathlib.Tactic.Common
import SavedState.Proofs.Pass
import SavedState.Proofs.Writing
import SavedState.Sink.Memory

/-!
Helpers that are written to memory.

An artifact that is accepted goes to the end, with its text as far as there is room for it.
Nothing else happens to the artifacts, so what one of them holds at some time it holds for ever.
-/

namespace SavedState

namespace Artifacts

lemma get?_eq_none {w : Artifacts} {name : String} (h : name ∉ w.names) : w.get? name = none := by
  unfold get?
  rw [List.lookup_eq_none_iff]
  intro e he
  rw [bne_iff_ne]
  rintro rfl
  exact h (List.mem_map_of_mem he)

/-- An artifact is found by its name, if none before it has that name. -/
lemma get?_between {w : Artifacts} {name : String} (h : name ∉ w.names) (held : List UInt8)
    (more : Artifacts) : get? (w ++ (name, held) :: more) name = some held := by
  have hw : w.lookup name = none := get?_eq_none h
  simp [get?, List.lookup_append, hw]

/-- The last artifact is found by its name, if that name is new. -/
lemma get?_concat {w : Artifacts} {name : String} (h : name ∉ w.names) (held : List UInt8) :
    get? (w ++ [(name, held)]) name = some held :=
  get?_between h held []

/-- Artifacts that are there stay as they are while others are added. -/
lemma get?_of_prefix {w w' : Artifacts} (h : w <+: w') {name : String} {held : List UInt8}
    (hg : w.get? name = some held) : w'.get? name = some held := by
  obtain ⟨more, rfl⟩ := h
  have hw : w.lookup name = some held := hg
  simp [get?, List.lookup_append, hw]

lemma extend_of_not_mem {w : Artifacts} {name : String} (h : name ∉ w.names)
    (bytes : List UInt8) : w.extend name bytes = w := by
  refine (List.map_congr_left fun e he => if_neg ?_).trans (List.map_id w)
  rintro rfl
  exact h (List.mem_map_of_mem he)

lemma extend_between {w more : Artifacts} {name : String} (h : name ∉ w.names)
    (hmore : name ∉ more.names) (held bytes : List UInt8) :
    extend (w ++ (name, held) :: more) name bytes = w ++ (name, held ++ bytes) :: more := by
  have hw := extend_of_not_mem h bytes
  have hm := extend_of_not_mem hmore bytes
  unfold extend at hw hm ⊢
  rw [List.map_append, List.map_cons, hw, hm]
  simp

end Artifacts

namespace Treatment

variable (t : Treatment)

/-- Whether an artifact is made when it is asked for. -/
def Accepts (w : Artifacts) (name : String) : Prop := t.failing name = false ∧ name ∉ w.names

instance (w : Artifacts) (name : String) : Decidable (t.Accepts w name) :=
  inferInstanceAs (Decidable (_ ∧ _))

/-- Whether an artifact with these bytes is carried to the end. -/
def Completes (name : String) (bytes : List UInt8) : Prop :=
  IsWithin (t.limit name) bytes ∧ t.refusesFlush name = false

instance (name : String) (bytes : List UInt8) : Decidable (t.Completes name bytes) :=
  inferInstanceAs (Decidable (_ ∧ _))

/-- An artifact takes what is written to it, up to its limit, and the others stay as they are. -/
lemma channel_keeps {w more : Artifacts} {name : String} (h : name ∉ w.names)
    (hmore : name ∉ more.names) :
    (t.channel name).Keeps (t.limit name) ⟨.other, "write limit reached"⟩
      fun held => w ++ (name, held) :: more := by
  intro held bytes hf
  change (t.write name bytes).run.run _ = _
  unfold write
  rw [Act.run_bind, Act.run_get]
  dsimp only
  rw [Artifacts.get?_between h, Option.getD_some, room]
  cases hl : t.limit name with
  | none =>
    rw [if_pos (isWithin_none _)]
    simp [Artifacts.extend_between h hmore, cut]
  | some n =>
    rw [hl, isWithin_some] at hf
    have htake : (held ++ bytes).take n = held ++ bytes.take (n - held.length) := by
      rw [List.take_append, List.take_of_length_le hf]
    dsimp only [Option.map_some]
    rw [Act.run_bind, Act.run_set]
    dsimp only
    rw [Artifacts.extend_between h hmore, cut, htake]
    by_cases hlt : n - held.length < bytes.length
    · have hover : ¬IsWithin (some n) (held ++ bytes) := by
        rw [isWithin_some, List.length_append]
        omega
      rw [if_pos hlt, if_neg hover]
      rfl
    · have hfit : IsWithin (some n) (held ++ bytes) := by
        rw [isWithin_some, List.length_append]
        omega
      rw [if_neg hlt, if_pos hfit]
      rfl

variable {w : Artifacts} {helper : HelperName}

/-- What a request for an artifact comes to. -/
lemma run_create (d : DeclaringType) : (t.sink.create helper d).run.run w =
    if t.failing helper.artifact then
      (.error ⟨.other, "simulated failure creating " ++ helper.artifact⟩, w)
    else if helper.artifact ∈ w.names then
      (.error ⟨.alreadyExists, "artifact " ++ helper.artifact ++ " already exists"⟩, w)
    else (.ok (t.channel helper.artifact), w ++ [(helper.artifact, [])]) := by
  change (t.create helper).run.run w = _
  unfold create
  dsimp only
  rw [Act.run_bind, Act.run_get]
  dsimp only
  by_cases hf : t.failing helper.artifact = true
  · rw [if_pos hf, if_pos hf]
    rfl
  · rw [if_neg hf, if_neg hf]
    by_cases hm : helper.artifact ∈ w.names
    · rw [if_pos hm, if_pos (List.contains_iff_mem.2 hm)]
      rfl
    · rw [if_neg hm, if_neg (mt List.contains_iff_mem.1 hm)]
      rfl

lemma run_create_of_accepts (d : DeclaringType) (h : t.Accepts w helper.artifact) :
    (t.sink.create helper d).run.run w =
      (.ok (t.channel helper.artifact), w ++ [(helper.artifact, [])]) := by
  rw [run_create, if_neg (Bool.eq_false_iff.1 h.1), if_neg h.2]

/-- What is not accepted leaves everything as it is. -/
lemma run_create_of_not_accepts (d : DeclaringType) (h : ¬t.Accepts w helper.artifact) :
    ∃ e, (t.sink.create helper d).run.run w = (.error e, w) := by
  rw [run_create]
  by_cases hf : t.failing helper.artifact = true
  · rw [if_pos hf]
    exact ⟨_, rfl⟩
  · have hm : helper.artifact ∈ w.names := by
      by_contra hm
      exact h ⟨Bool.eq_false_iff.2 hf, hm⟩
    rw [if_neg hf, if_pos hm]
    exact ⟨_, rfl⟩

/-- Why a helper is not carried to the end, if it is not. -/
def obstacle? (w : Artifacts) (name : String) (bytes : List UInt8) : Option IoError :=
  if t.failing name then some ⟨.other, "simulated failure creating " ++ name⟩
  else if name ∈ w.names then some ⟨.alreadyExists, "artifact " ++ name ++ " already exists"⟩
  else if ¬IsWithin (t.limit name) bytes then some ⟨.other, "write limit reached"⟩
  else if t.refusesFlush name then some ⟨.other, "flush refused"⟩
  else none

/-- What is kept of a helper. -/
def kept (w : Artifacts) (name : String) (bytes : List UInt8) : Artifacts :=
  if t.Accepts w name then [(name, cut (t.limit name) bytes)] else []

lemma obstacle?_eq_none {name : String} {bytes : List UInt8} :
    t.obstacle? w name bytes = none ↔ t.Accepts w name ∧ t.Completes name bytes := by
  unfold obstacle? Accepts Completes
  split_ifs <;> simp_all

variable {v : Driver} {d : DeclaringType} (fields : FieldSet)

/-- **What an attempt at a helper comes to.** -/
lemma run_perform (hv : v.emitter = HelperText.emitter) :
    let whole := HelperText.emitter.whole d (v.helperName d) fields
    (v.perform t.sink d fields).run.run w =
      (match t.obstacle? w (v.helperName d).artifact whole with
        | none => .ok ()
        | some e => .error e, w ++ t.kept w (v.helperName d).artifact whole) := by
  intro whole
  by_cases ha : t.Accepts w (v.helperName d).artifact
  · have hobstacle : t.obstacle? w (v.helperName d).artifact whole =
        if ¬IsWithin (t.limit (v.helperName d).artifact) whole then
          some ⟨.other, "write limit reached"⟩
        else if t.refusesFlush (v.helperName d).artifact then some ⟨.other, "flush refused"⟩
        else none := by
      rw [obstacle?, if_neg (Bool.eq_false_iff.1 ha.1), if_neg ha.2]
    rw [Driver.perform_of_created fields (t.run_create_of_accepts d ha), Act.run_bind, hv,
      HelperText.run_emitter _ _ fields (t.channel_keeps ha.2 List.not_mem_nil), hobstacle, kept,
      if_pos ha]
    by_cases hfit : IsWithin (t.limit (v.helperName d).artifact) whole
    · rw [if_pos hfit, if_neg (not_not.2 hfit)]
      change (t.flush _).run.run _ = _
      unfold flush
      split <;> rfl
    · rw [if_neg hfit, if_pos hfit]
  · have hrefused : (t.sink.create (v.helperName d) d).run.run w =
        (match t.obstacle? w (v.helperName d).artifact whole with
          | none => .ok (t.channel (v.helperName d).artifact)
          | some e => .error e, w) := by
      rw [run_create, obstacle?]
      by_cases hf : t.failing (v.helperName d).artifact = true
      · rw [if_pos hf, if_pos hf]
      · have hm : (v.helperName d).artifact ∈ w.names := by
          by_contra hm
          exact ha ⟨Bool.eq_false_iff.2 hf, hm⟩
        rw [if_neg hf, if_neg hf, if_pos hm, if_pos hm]
    rw [kept, if_neg ha, List.append_nil]
    cases ho : t.obstacle? w (v.helperName d).artifact whole with
    | none => exact absurd (t.obstacle?_eq_none.1 ho).1 ha
    | some e =>
      rw [ho] at hrefused
      exact Driver.perform_of_not_created fields hrefused

/-- What is reported of an attempt. -/
lemma emit_eq (hv : v.emitter = HelperText.emitter) :
    let helper := v.helperName d
    let whole := HelperText.emitter.whole d helper fields
    v.emit t.sink d fields w =
      (match t.obstacle? w helper.artifact whole with
        | none => (.written helper.artifact fields.size, [])
        | some e =>
          let reason := ArtifactError.message ⟨helper.artifact, e⟩
          (.failed helper.artifact reason, [⟨v.severity, .type d, reason⟩]),
        w ++ t.kept w helper.artifact whole) := by
  intro helper whole
  have hperform := t.run_perform (w := w) (d := d) fields hv
  dsimp only at hperform
  cases ho : t.obstacle? w helper.artifact whole with
  | none =>
    rw [ho] at hperform
    exact Driver.emit_of_ok hperform
  | some e =>
    rw [ho] at hperform
    exact Driver.emit_of_error hperform

/-- **What becomes of a helper that is accepted.** It is written if it can be carried to the end;
what there is room for is kept in any case. -/
lemma emit_of_accepts (hv : v.emitter = HelperText.emitter)
    (h : t.Accepts w (v.helperName d).artifact) :
    let whole := HelperText.emitter.whole d (v.helperName d) fields
    (v.emit t.sink d fields w).2 =
        w ++ [((v.helperName d).artifact, cut (t.limit (v.helperName d).artifact) whole)] ∧
      if t.Completes (v.helperName d).artifact whole then
        (v.emit t.sink d fields w).1 = (.written (v.helperName d).artifact fields.size, [])
      else ∃ reason, (v.emit t.sink d fields w).1 =
        (.failed (v.helperName d).artifact reason, [⟨v.severity, .type d, reason⟩]) := by
  intro whole
  rw [t.emit_eq fields hv]
  refine ⟨by rw [kept, if_pos h], ?_⟩
  split
  · rename_i hc
    rw [t.obstacle?_eq_none.2 ⟨h, hc⟩]
  · rename_i hc
    cases ho : t.obstacle? w (v.helperName d).artifact whole with
    | none => exact absurd (t.obstacle?_eq_none.1 ho).2 hc
    | some e => exact ⟨_, rfl⟩

lemma emit_of_not_accepts (h : ¬t.Accepts w (v.helperName d).artifact) :
    ∃ reason, v.emit t.sink d fields w =
      ((.failed (v.helperName d).artifact reason, [⟨v.severity, .type d, reason⟩]), w) := by
  obtain ⟨e, he⟩ := t.run_create_of_not_accepts d h
  rw [Driver.emit_of_error (Driver.perform_of_not_created fields he)]
  exact ⟨_, rfl⟩

/-- **Artifacts are only added.** -/
lemma prefix_emit (hv : v.emitter = HelperText.emitter) : w <+: (v.emit t.sink d fields w).2 := by
  by_cases h : t.Accepts w (v.helperName d).artifact
  · rw [(t.emit_of_accepts fields hv h).1]
    exact List.prefix_append _ _
  · obtain ⟨reason, he⟩ := t.emit_of_not_accepts fields h
    exact congrArg Prod.snd he ▸ List.prefix_rfl

/-- What is written has been accepted, and stands at the end as a whole. -/
lemma of_emit_written (hv : v.emitter = HelperText.emitter)
    (h : (v.emit t.sink d fields w).1.1.isWritten = true) :
    (v.helperName d).artifact ∉ w.names ∧ (v.emit t.sink d fields w).2 =
      w ++ [((v.helperName d).artifact, HelperText.emitter.whole d (v.helperName d) fields)] := by
  by_cases ha : t.Accepts w (v.helperName d).artifact
  · obtain ⟨hworld, hout⟩ := t.emit_of_accepts fields hv ha
    split at hout
    · rename_i hc
      rw [hworld, hc.1.cut_eq]
      exact ⟨ha.2, rfl⟩
    · obtain ⟨reason, hout⟩ := hout
      rw [hout] at h
      cases h
  · obtain ⟨reason, he⟩ := t.emit_of_not_accepts fields ha
    rw [he] at h
    cases h

end Treatment

end SavedState
