import Mathlib.Data.List.Pairwise
import Mathlib.Tactic.Common
import SavedState.Processor

/-!
A run taken apart into its rounds: what each one leaves behind, and where the next one starts.
Whatever else a round does, it only adds to the store.
-/

namespace SavedState

/-! ### Stores that grow -/

namespace Store

/-- Every type is still there with its records, perhaps with more of them behind. -/
def Extends (s s' : Store) : Prop :=
  ∀ t fields, (t, fields) ∈ s.entries →
    ∃ fields', (t, fields') ∈ s'.entries ∧ fields.toList <+: fields'.toList

lemma Extends.refl (s : Store) : s.Extends s := fun _ fields h => ⟨fields, h, List.prefix_rfl⟩

lemma Extends.trans {s t v : Store} (hst : s.Extends t) (htv : t.Extends v) : s.Extends v := by
  intro d fields h
  obtain ⟨fields₁, h₁, hp₁⟩ := hst d fields h
  obtain ⟨fields₂, h₂, hp₂⟩ := htv d fields₁ h₁
  exact ⟨fields₂, h₂, hp₁.trans hp₂⟩

lemma extends_insert (s : Store) (d : DeclaringType) (r : FieldRecord) :
    s.Extends (s.insert d r) := by
  obtain ⟨l, hl⟩ := s
  intro t fields h
  simp only [insert] at h ⊢
  clear hl
  induction l with
  | nil => exact absurd h List.not_mem_nil
  | cons e es ih =>
    unfold add
    split
    · rcases List.mem_cons.1 h with rfl | h
      · refine ⟨fields.insert r, List.mem_cons_self, ?_⟩
        rw [FieldSet.toList_insert]
        split
        · exact List.prefix_rfl
        · exact List.prefix_append _ _
      · exact ⟨fields, List.mem_cons_of_mem _ h, List.prefix_rfl⟩
    · rcases List.mem_cons.1 h with rfl | h
      · exact ⟨fields, List.mem_cons_self, List.prefix_rfl⟩
      · obtain ⟨fields', h', hp⟩ := ih h
        exact ⟨fields', List.mem_cons_of_mem _ h', hp⟩

lemma extends_collect (resolver : Resolver) (s : Store) (es : List Element) :
    s.Extends (s.collect resolver es).store := by
  have hfile : ∀ c : Collected, c.store.Extends (es.foldl (Collected.file resolver) c).store := by
    induction es with
    | nil => exact fun c => Extends.refl _
    | cons e es ih =>
      refine fun c => Extends.trans ?_ (ih (c.file resolver e))
      unfold Collected.file
      cases e.build resolver with
      | error err => exact Extends.refl _
      | ok r =>
        simp only
        split
        · exact Extends.refl _
        · exact extends_insert _ _ _
  exact hfile (Collected.start s)

/-- A type has one entry. -/
lemma eq_of_mem_of_same {s : Store} {t t' : DeclaringType} {fields fields' : FieldSet}
    (h : (t, fields) ∈ s.entries) (h' : (t', fields') ∈ s.entries) (hs : t.same t' = true) :
    t = t' ∧ fields = fields' := by
  have : Std.Symm fun a b : DeclaringType × FieldSet => a.1.same b.1 = false :=
    ⟨fun a b hab => by rw [DeclaringType.same_comm]; exact hab⟩
  by_contra hne
  have hf := s.distinct.forall h h' (fun he => hne (Prod.mk.inj he))
  exact Bool.false_ne_true (hf.symm.trans hs)

end Store

/-! ### Rounds one by one -/

/-- Whether a round visits the stored types, or puts that off. -/
def Setup.emits (u : Setup) (r : Round) : Bool := u.settings.reemit != .finalRound || r.isFinal

namespace Processor

variable {σ : Type} (u : Setup) (sink : Sink σ)

/-- What rounds leave behind one after another, from a processor and a world on. -/
def steps (p : Processor) (world : σ) : List Round → List (Step σ)
  | [] => []
  | r :: rs =>
    let s := p.process u sink r world
    s :: steps s.processor s.world rs

/-- Where rounds lead to, from a processor and a world on. -/
def after (p : Processor) (world : σ) (rs : List Round) : Processor × σ :=
  rs.foldl (fun q r => let s := q.1.process u sink r q.2; (s.processor, s.world)) (p, world)

@[simp] lemma steps_nil (p : Processor) (world : σ) : steps u sink p world [] = [] := rfl

lemma steps_cons (p : Processor) (world : σ) (r : Round) (rs : List Round) :
    steps u sink p world (r :: rs) = p.process u sink r world ::
      steps u sink (p.process u sink r world).processor (p.process u sink r world).world rs := rfl

@[simp] lemma after_nil (p : Processor) (world : σ) : after u sink p world [] = (p, world) := rfl

lemma after_cons (p : Processor) (world : σ) (r : Round) (rs : List Round) :
    after u sink p world (r :: rs) = after u sink (p.process u sink r world).processor
      (p.process u sink r world).world rs := rfl

lemma after_append (p : Processor) (world : σ) (rs ts : List Round) :
    after u sink p world (rs ++ ts) =
      after u sink (after u sink p world rs).1 (after u sink p world rs).2 ts := by
  simp [after, List.foldl_append]

lemma steps_append (p : Processor) (world : σ) (rs ts : List Round) :
    steps u sink p world (rs ++ ts) = steps u sink p world rs ++
      steps u sink (after u sink p world rs).1 (after u sink p world rs).2 ts := by
  induction rs generalizing p world with
  | nil => rfl
  | cons r rs ih => simp [steps_cons, after_cons, ih]

lemma after_concat (p : Processor) (world : σ) (rs : List Round) (r : Round) :
    after u sink p world (rs ++ [r]) =
      (((after u sink p world rs).1.process u sink r (after u sink p world rs).2).processor,
        ((after u sink p world rs).1.process u sink r (after u sink p world rs).2).world) := by
  rw [after_append]
  rfl

lemma steps_concat (p : Processor) (world : σ) (rs : List Round) (r : Round) :
    steps u sink p world (rs ++ [r]) = steps u sink p world rs ++
      [(after u sink p world rs).1.process u sink r (after u sink p world rs).2] := by
  rw [steps_append]
  rfl

lemma extends_process (p : Processor) (r : Round) (world : σ) :
    p.store.Extends (p.process u sink r world).processor.store :=
  Store.extends_collect _ _ _

lemma extends_after (p : Processor) (world : σ) (rs : List Round) :
    p.store.Extends (after u sink p world rs).1.store := by
  induction rs generalizing p world with
  | nil => exact Store.Extends.refl _
  | cons r rs ih =>
    rw [after_cons]
    exact (extends_process u sink p r world).trans (ih _ _)

lemma run_concat (rs : List Round) (r : Round) (world : σ) :
    run u sink (rs ++ [r]) world = (run u sink rs world).next u sink r := by
  simp [run, List.foldl_append]

lemma foldl_next (rs : List Round) (h : History σ) :
    rs.foldl (History.next u sink) h =
      ⟨(after u sink h.processor h.world rs).1, (after u sink h.processor h.world rs).2,
        h.reports ++ (steps u sink h.processor h.world rs).map Step.report,
        h.diagnostics ++ (steps u sink h.processor h.world rs).flatMap Step.diagnostics⟩ := by
  induction rs generalizing h with
  | nil => simp
  | cons r rs ih => simp [ih, History.next, after_cons, steps_cons, List.append_assoc]

/-- **A run is the sum of its steps.** -/
lemma run_eq (rs : List Round) (world : σ) :
    run u sink rs world =
      ⟨(after u sink fresh world rs).1, (after u sink fresh world rs).2,
        (steps u sink fresh world rs).map Step.report,
        (steps u sink fresh world rs).flatMap Step.diagnostics⟩ := by
  simp [run, foldl_next]

end Processor

end SavedState
