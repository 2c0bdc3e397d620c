import Mathlib.Data.List.Basic
import SavedState.Proofs.MemoryWriting

/-!
Visits that write to memory.

Such a visit looks at nothing but the number beside its type, and at whether the artifact of the
type is there. All that it adds to a pass is about this type and this artifact.
-/

namespace SavedState

/-- Whether two treatments make no difference to an artifact. -/
structure Treatment.Agree (t t' : Treatment) (name : String) : Prop where
  failing : t.failing name = t'.failing name
  limit : t.limit name = t'.limit name
  refusesFlush : t.refusesFlush name = t'.refusesFlush name

namespace Treatment.Agree

variable {t t' : Treatment} {name : String} (h : t.Agree t' name) {w w' : Artifacts}
  (hw : name ∈ w.names ↔ name ∈ w'.names)

include h hw

lemma obstacle?_eq (bytes : List UInt8) :
    t.obstacle? w name bytes = t'.obstacle? w' name bytes := by
  unfold obstacle?
  rw [h.failing, h.limit, h.refusesFlush]
  congr 1
  exact if_congr hw rfl rfl

lemma kept_eq (bytes : List UInt8) : t.kept w name bytes = t'.kept w' name bytes := by
  have ha : t.Accepts w name ↔ t'.Accepts w' name :=
    and_congr (by rw [h.failing]) (not_congr hw)
  unfold kept
  rw [h.limit]
  exact if_congr ha rfl rfl

end Treatment.Agree

namespace Processor

/-- What a visit adds to a pass: an outcome with its diagnostics, the number that is beside the
type from then on, if it is set, and at most one artifact. -/
structure Addition where
  outcome : Outcome
  diagnostics : List Diagnostic
  number : Option Nat
  artifacts : Artifacts

def Pass.plus (pass : Pass Artifacts) (d : DeclaringType) (x : Addition) : Pass Artifacts where
  emitted := x.number.elim pass.emitted fun n => pass.emitted.put d n
  world := pass.world ++ x.artifacts
  outcomes := pass.outcomes ++ [(d, x.outcome)]
  diagnostics := pass.diagnostics ++ x.diagnostics

variable (u : Setup) (t : Treatment)

/-- What is added for a type whose helper has been written, with the first `known` records
accounted for. -/
def passedOver (e : DeclaringType × FieldSet) (known : Nat) : Addition :=
  let outcome := .skipped (u.driver.helperName e.1).artifact
  if known < e.2.size then ⟨outcome, [lateNotice e.1 (e.2.toList.drop known)], some e.2.size, []⟩
  else ⟨outcome, [], none, []⟩

/-- What is added for a type whose helper is tried. -/
def tried (e : DeclaringType × FieldSet) (w : Artifacts) : Addition :=
  let helper := u.driver.helperName e.1
  let whole := HelperText.emitter.whole e.1 helper e.2
  let kept := t.kept w helper.artifact whole
  match t.obstacle? w helper.artifact whole with
  | none => ⟨.written helper.artifact e.2.size, [], some e.2.size, kept⟩
  | some err =>
    let reason := ArtifactError.message ⟨helper.artifact, err⟩
    ⟨.failed helper.artifact reason, [⟨u.settings.artifactSeverity, .type e.1, reason⟩], none, kept⟩

/-- What a visit adds to a pass that has come so far. -/
def addition (pass : Pass Artifacts) (e : DeclaringType × FieldSet) : Addition :=
  match if u.settings.reemit = .attempt then none else pass.emitted.get? e.1 with
  | some known => passedOver u e known
  | none => tried u t e pass.world

variable {u t}

/-- **A visit only adds.** -/
lemma visit_eq_plus (hu : u.emitter = HelperText.emitter) (pass : Pass Artifacts)
    (e : DeclaringType × FieldSet) :
    pass.visit u t.sink e = pass.plus e.1 (addition u t pass e) := by
  unfold Pass.visit addition
  cases hn : if u.settings.reemit = .attempt then none else pass.emitted.get? e.1 with
  | some known =>
    dsimp only
    unfold Pass.skip passedOver
    split <;> simp [Pass.plus]
  | none =>
    have hemit := t.emit_eq (w := pass.world) (v := u.driver) (d := e.1) e.2 hu
    dsimp only at hemit ⊢
    unfold Pass.emit tried
    rw [hemit]
    dsimp only
    cases t.obstacle? pass.world (u.driver.helperName e.1).artifact
      (HelperText.emitter.whole e.1 (u.driver.helperName e.1) e.2) <;> rfl

/-- A visit depends on the number beside its type, on how its artifact is treated, and on whether
this is there. -/
lemma addition_congr {t' : Treatment} {pass pass' : Pass Artifacts} {e : DeclaringType × FieldSet}
    (ht : t.Agree t' (u.driver.helperName e.1).artifact)
    (hn : pass.emitted.get? e.1 = pass'.emitted.get? e.1)
    (hw : (u.driver.helperName e.1).artifact ∈ pass.world.names ↔
      (u.driver.helperName e.1).artifact ∈ pass'.world.names) :
    addition u t pass e = addition u t' pass' e := by
  have htried : tried u t e pass.world = tried u t' e pass'.world := by
    unfold tried
    dsimp only
    rw [ht.obstacle?_eq hw, ht.kept_eq hw]
  unfold addition
  rw [hn, htried]

variable (u t)

lemma mem_artifacts_addition {pass : Pass Artifacts} {e : DeclaringType × FieldSet}
    {a : String × List UInt8} (h : a ∈ (addition u t pass e).artifacts) :
    a.1 = (u.driver.helperName e.1).artifact := by
  have hkept : ∀ w name bytes, ∀ a ∈ t.kept w name bytes, a.1 = name := by
    intro w name bytes a ha
    unfold Treatment.kept at ha
    split at ha
    · rw [List.mem_singleton.1 ha]
    · exact absurd ha List.not_mem_nil
  unfold addition at h
  split at h
  · unfold passedOver at h
    split at h <;> exact absurd h List.not_mem_nil
  · unfold tried at h
    dsimp only at h
    split at h <;> exact hkept _ _ _ a h

lemma subject_of_mem_addition {pass : Pass Artifacts} {e : DeclaringType × FieldSet}
    {x : Diagnostic} (h : x ∈ (addition u t pass e).diagnostics) : x.subject = .type e.1 := by
  unfold addition at h
  split at h
  · unfold passedOver at h
    split at h
    · rw [List.mem_singleton.1 h]
      rfl
    · exact absurd h List.not_mem_nil
  · unfold tried at h
    dsimp only at h
    split at h
    · exact absurd h List.not_mem_nil
    · rw [List.mem_singleton.1 h]

lemma get?_plus (pass : Pass Artifacts) (d c : DeclaringType) (x : Addition) :
    (pass.plus d x).emitted.get? c =
      if d.same c then x.number.or (pass.emitted.get? c) else pass.emitted.get? c := by
  unfold Pass.plus
  cases x.number with
  | none => simp
  | some n => simp [Emitted.get?_put]

/-! ### Passes over types with artifacts of their own -/

/-- Two entries of a store that have neither type nor artifact in common. -/
def Apart (a b : DeclaringType × FieldSet) : Prop :=
  a.1.same b.1 = false ∧ (u.driver.helperName a.1).artifact ≠ (u.driver.helperName b.1).artifact

variable {u t}

lemma addition_plus {pass : Pass Artifacts} {a e : DeclaringType × FieldSet} (h : Apart u a e) :
    addition u t (pass.plus a.1 (addition u t pass a)) e = addition u t pass e := by
  refine addition_congr ⟨rfl, rfl, rfl⟩ ?_ ?_
  · rw [get?_plus, if_neg (Bool.eq_false_iff.1 h.1)]
  · have hother : (u.driver.helperName e.1).artifact ∉ (addition u t pass a).artifacts.names := by
      intro hm
      obtain ⟨x, hx, hname⟩ := List.mem_map.1 hm
      exact h.2 ((mem_artifacts_addition u t hx).symm.trans hname)
    unfold Pass.plus Artifacts.names at *
    rw [List.map_append, List.mem_append, or_iff_left hother]

/-- **What a pass comes to.** Each visit adds what it would add if it came first. -/
lemma foldl_visit (hu : u.emitter = HelperText.emitter) {l : List (DeclaringType × FieldSet)}
    (hl : l.Pairwise (Apart u)) (pass : Pass Artifacts) :
    let add := addition u t pass
    let last := l.foldl (Pass.visit u t.sink) pass
    last.world = pass.world ++ l.flatMap (fun e => (add e).artifacts) ∧
      last.outcomes = pass.outcomes ++ l.map (fun e => (e.1, (add e).outcome)) ∧
      last.diagnostics = pass.diagnostics ++ l.flatMap (fun e => (add e).diagnostics) ∧
      ∀ d, last.emitted.get? d =
        ((l.find? fun e => e.1.same d).bind fun e => (add e).number).or (pass.emitted.get? d) := by
  induction l generalizing pass with
  | nil => simp
  | cons a l ih =>
    rw [List.pairwise_cons] at hl
    intro add last
    have hadd : ∀ e ∈ l, addition u t (pass.plus a.1 (add a)) e = add e :=
      fun e he => addition_plus (hl.1 e he)
    have hlast : last = l.foldl (Pass.visit u t.sink) (pass.plus a.1 (add a)) := by
      unfold last add
      rw [List.foldl_cons, visit_eq_plus hu]
    obtain ⟨hworld, houtcomes, hdiagnostics, hemitted⟩ := ih hl.2 (pass.plus a.1 (add a))
    rw [hlast]
    refine ⟨?_, ?_, ?_, fun d => ?_⟩
    · rw [hworld, List.flatMap_congr fun e he => by rw [hadd e he]]
      simp [Pass.plus]
    · rw [houtcomes, List.map_congr_left fun e he => by rw [hadd e he]]
      simp [Pass.plus]
    · rw [hdiagnostics, List.flatMap_congr fun e he => by rw [hadd e he]]
      simp [Pass.plus]
    · rw [hemitted, get?_plus, List.find?_cons]
      cases had : a.1.same d with
      | true =>
        have hnone : l.find? (fun e => e.1.same d) = none := by
          rw [List.find?_eq_none]
          intro e he hed
          have hae := DeclaringType.same_trans had (DeclaringType.same_symm hed)
          exact Bool.false_ne_true ((hl.1 e he).1.symm.trans hae)
        rw [hnone, if_pos rfl]
        rfl
      | false =>
        rw [if_neg Bool.false_ne_true]
        cases hf : l.find? (fun e => e.1.same d) with
        | none => rfl
        | some e =>
          rw [Option.bind_some, hadd e (List.mem_of_find?_eq_some hf)]
          rfl

end Processor

end SavedState
