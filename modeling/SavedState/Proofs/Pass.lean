import Mathlib.Tactic.Common
import SavedState.Proofs.Rounds

/-!
What a pass over the store means for one declaring type.

Of a pass, a type is shown its number among the emitted types, the outcomes that are reported
for it, and the diagnostics about its helper. A visit to another type changes none of these, so
what a whole pass does for a type is what the one visit to it does.
-/

namespace SavedState

namespace Emitted

lemma get?_cons (e : DeclaringType × Nat) (l : Emitted) (d : DeclaringType) :
    get? (e :: l) d = if e.1.same d then some e.2 else get? l d := by
  unfold get?
  rw [List.find?_cons]
  cases e.1.same d <;> rfl

lemma get?_put (d c : DeclaringType) (n : Nat) (l : Emitted) :
    get? (put d n l) c = if d.same c then some n else get? l c := by
  induction l with
  | nil => simp [put, get?_cons]
  | cons e l ih =>
    unfold put
    by_cases he : e.1.same d = true
    · rw [if_pos he, get?_cons, get?_cons, DeclaringType.same_congr_left he]
      split <;> rfl
    · rw [if_neg he, get?_cons, get?_cons, ih]
      by_cases hc : d.same c = true
      · have hec : ¬e.1.same c = true := fun h =>
          he (DeclaringType.same_trans h (DeclaringType.same_symm hc))
        rw [if_neg hec, if_pos hc, if_pos hc]
      · rw [if_neg hc, if_neg hc]

lemma get?_congr {d c : DeclaringType} (h : d.same c = true) (l : Emitted) :
    get? l d = get? l c := by
  have : (fun e : DeclaringType × Nat => e.1.same d) = fun e => e.1.same c :=
    funext fun e => DeclaringType.same_congr_right h e.1
  rw [get?, get?, this]

lemma mem_put {d : DeclaringType} {n : Nat} {l : Emitted} {e : DeclaringType × Nat}
    (h : e ∈ put d n l) : e.1 = d ∨ ∃ e' ∈ l, e'.1 = e.1 := by
  induction l with
  | nil => exact Or.inl (congrArg Prod.fst (List.mem_singleton.1 h))
  | cons x l ih =>
    unfold put at h
    split at h
    · rcases List.mem_cons.1 h with rfl | h
      · exact Or.inr ⟨x, List.mem_cons_self, rfl⟩
      · exact Or.inr ⟨e, List.mem_cons_of_mem _ h, rfl⟩
    · rcases List.mem_cons.1 h with rfl | h
      · exact Or.inr ⟨e, List.mem_cons_self, rfl⟩
      · rcases ih h with h | ⟨e', h, he⟩
        · exact Or.inl h
        · exact Or.inr ⟨e', List.mem_cons_of_mem _ h, he⟩

lemma exists_mem_of_get? {d : DeclaringType} {n : Nat} {l : Emitted} (h : get? l d = some n) :
    ∃ e ∈ l, e.1.same d = true := by
  obtain ⟨e, he, -⟩ := Option.map_eq_some_iff.1 h
  have hs := List.find?_some he
  exact ⟨e, List.mem_of_find?_eq_some he, hs⟩

end Emitted

/-- Whether a diagnostic is about the helper of `d`. -/
def Diagnostic.isAbout (d : DeclaringType) (x : Diagnostic) : Bool :=
  match x.subject with
  | .element _ _ => false
  | .type t => t.same d

namespace Processor

/-- What is to be seen of one declaring type. -/
@[ext]
structure View where
  known : Option Nat
  outcomes : List Outcome
  diagnostics : List Diagnostic

/-- What has been reported for one type. -/
def outcomesOf (d : DeclaringType) (l : List (DeclaringType × Outcome)) : List Outcome :=
  (l.filter fun e => e.1.same d).map (·.2)

@[simp] lemma outcomesOf_append (d : DeclaringType) (l m : List (DeclaringType × Outcome)) :
    outcomesOf d (l ++ m) = outcomesOf d l ++ outcomesOf d m := by
  simp [outcomesOf]

lemma outcomesOf_singleton (d t : DeclaringType) (o : Outcome) :
    outcomesOf d [(t, o)] = if t.same d then [o] else [] := by
  unfold outcomesOf
  cases h : t.same d <;> simp [h]

variable {σ : Type}

def Pass.view (pass : Pass σ) (d : DeclaringType) : View :=
  ⟨pass.emitted.get? d, outcomesOf d pass.outcomes, pass.diagnostics.filter (·.isAbout d)⟩

def Step.view (s : Step σ) (d : DeclaringType) : View :=
  ⟨s.processor.emitted.get? d, outcomesOf d s.report.emission.outcomes,
    s.diagnostics.filter (·.isAbout d)⟩

variable (u : Setup) (sink : Sink σ)

/-! ### One visit -/

/-- A type is either known to be written and passed over, or its helper is tried. -/
lemma visit_cases (pass : Pass σ) (e : DeclaringType × FieldSet) :
    (∃ n, u.settings.reemit ≠ .attempt ∧ pass.emitted.get? e.1 = some n ∧
      pass.visit u sink e = pass.skip u e.1 e.2 n) ∨
    ((u.settings.reemit = .attempt ∨ pass.emitted.get? e.1 = none) ∧
      pass.visit u sink e = pass.emit u sink e.1 e.2) := by
  by_cases hu : u.settings.reemit = .attempt
  · exact Or.inr ⟨Or.inl hu, by rw [Pass.visit, if_pos hu]⟩
  · cases hn : pass.emitted.get? e.1 with
    | none => exact Or.inr ⟨Or.inr rfl, by rw [Pass.visit, if_neg hu, hn]⟩
    | some n => exact Or.inl ⟨n, hu, rfl, by rw [Pass.visit, if_neg hu, hn]⟩

/-- A helper is written with all records and without a diagnostic, or it fails and the one
diagnostic says why. -/
lemma emit_cases (v : Driver) (d : DeclaringType) (fields : FieldSet) (world : σ) :
    (v.emit sink d fields world).1 = (.written (v.helperName d).artifact fields.size, []) ∨
    ∃ e : ArtifactError, (v.emit sink d fields world).1 =
      (.failed (v.helperName d).artifact e.message, [⟨v.severity, .type d, e.message⟩]) := by
  unfold Driver.emit Driver.write
  rcases (v.perform sink d fields).run.run world with ⟨_ | _, w⟩
  · exact Or.inr ⟨_, rfl⟩
  · exact Or.inl rfl

variable {u sink}

lemma emit_isAbout {v : Driver} {t : DeclaringType} {fields : FieldSet} {world : σ} {x : Diagnostic}
    (h : x ∈ (v.emit sink t fields world).1.2) (d : DeclaringType) : x.isAbout d = t.same d := by
  rcases emit_cases sink v t fields world with he | ⟨e, he⟩
  · rw [he] at h
    exact absurd h List.not_mem_nil
  · rw [he] at h
    rw [List.mem_singleton.1 h]
    rfl

lemma view_visit_of_not_same (pass : Pass σ) {e : DeclaringType × FieldSet} {d : DeclaringType}
    (h : e.1.same d = false) : (pass.visit u sink e).view d = pass.view d := by
  rcases visit_cases u sink pass e with ⟨n, -, -, hv⟩ | ⟨-, hv⟩
  · rw [hv]
    unfold Pass.skip
    split <;>
      simp [Pass.view, outcomesOf_singleton, Emitted.get?_put, h, lateNotice, Diagnostic.isAbout]
  · rw [hv]
    unfold Pass.emit
    have hnone : ((u.driver.emit sink e.1 e.2 pass.world).1.2).filter (·.isAbout d) = [] := by
      rw [List.filter_eq_nil_iff]
      intro x hx
      simp [emit_isAbout hx, h]
    simp only [Pass.view, outcomesOf_append, outcomesOf_singleton, h, List.filter_append, hnone]
    split <;> simp [Emitted.get?_put, h]

lemma view_visit_of_known (pass : Pass σ) {t : DeclaringType} {fields : FieldSet}
    {d : DeclaringType} {n : Nat} (hu : u.settings.reemit ≠ .attempt) (ht : t.same d = true)
    (hn : (pass.view d).known = some n) :
    (pass.visit u sink (t, fields)).view d =
      ⟨some (max n fields.size),
        (pass.view d).outcomes ++ [.skipped (u.driver.helperName t).artifact],
        (pass.view d).diagnostics ++
          if n < fields.size then [lateNotice t (fields.toList.drop n)] else []⟩ := by
  have hg : pass.emitted.get? t = some n := (Emitted.get?_congr ht _).trans hn
  rcases visit_cases u sink pass (t, fields) with ⟨m, -, hm, hv⟩ | ⟨ha | hm, -⟩
  · cases hg.symm.trans hm
    rw [hv]
    unfold Pass.skip
    split
    · rename_i hlt
      simp [Pass.view, outcomesOf_singleton, Emitted.get?_put, ht, lateNotice,
        Diagnostic.isAbout, Nat.max_eq_right (Nat.le_of_lt hlt)]
    · rename_i hle
      have hmax : max n fields.size = n := Nat.max_eq_left (Nat.le_of_not_lt hle)
      have hd : pass.emitted.get? d = some n := hn
      simp [Pass.view, outcomesOf_singleton, ht, hmax, hd]
  · exact absurd ha hu
  · rw [hg] at hm
    cases hm

lemma view_visit_of_tried (pass : Pass σ) {t : DeclaringType} {fields : FieldSet}
    {d : DeclaringType} (ht : t.same d = true)
    (hn : u.settings.reemit = .attempt ∨ (pass.view d).known = none) :
    (pass.visit u sink (t, fields)).view d =
      let attempt := (u.driver.emit sink t fields pass.world).1
      ⟨if attempt.1.isWritten then some fields.size else (pass.view d).known,
        (pass.view d).outcomes ++ [attempt.1], (pass.view d).diagnostics ++ attempt.2⟩ := by
  rcases visit_cases u sink pass (t, fields) with ⟨m, hu, hm, -⟩ | ⟨-, hv⟩
  · rcases hn with hn | hn
    · exact absurd hn hu
    · have : pass.emitted.get? t = none := (Emitted.get?_congr ht _).trans hn
      rw [this] at hm
      cases hm
  · rw [hv]
    unfold Pass.emit
    have hall : ((u.driver.emit sink t fields pass.world).1.2).filter (·.isAbout d) =
        (u.driver.emit sink t fields pass.world).1.2 := by
      rw [List.filter_eq_self]
      intro x hx
      rw [emit_isAbout hx, ht]
    simp only [Pass.view, outcomesOf_append, outcomesOf_singleton, ht, List.filter_append, hall]
    split <;> simp [Emitted.get?_put, ht]

/-! ### The pass of a round -/

lemma view_foldl_of_not_same {l : List (DeclaringType × FieldSet)} {d : DeclaringType}
    (h : ∀ e ∈ l, e.1.same d = false) (pass : Pass σ) :
    (l.foldl (Pass.visit u sink) pass).view d = pass.view d := by
  induction l generalizing pass with
  | nil => rfl
  | cons e l ih =>
    rw [List.foldl_cons, ih fun x hx => h x (List.mem_cons_of_mem _ hx),
      view_visit_of_not_same pass (h e List.mem_cons_self)]

variable (u sink)

/-- The pass of a round after the visits to the types in `front`. -/
def partway (p : Processor) (world : σ) (front : List (DeclaringType × FieldSet)) : Pass σ :=
  front.foldl (Pass.visit u sink) ⟨p.emitted, world, [], []⟩

/-- What the elements of a round leave in the store. -/
def gathered (p : Processor) (r : Round) : Store :=
  (p.store.collect u.resolver (eligible r.elements)).store

lemma extends_gathered (p : Processor) (r : Round) : p.store.Extends (p.gathered u r) :=
  Store.extends_collect _ _ _

lemma emission_eq (p : Processor) (r : Round) (world : σ) :
    emission u sink (p.gathered u r) p.emitted r.isFinal world =
      partway u sink p world (if u.emits r then (p.gathered u r).entries else []) := by
  unfold emission Setup.emits partway
  by_cases hp : u.settings.reemit = .finalRound <;> cases hf : r.isFinal <;> simp [hp]

lemma process_emitted (p : Processor) (r : Round) (world : σ) :
    (p.process u sink r world).processor.emitted =
      (partway u sink p world (if u.emits r then (p.gathered u r).entries else [])).emitted := by
  rw [← emission_eq]
  rfl

lemma process_world (p : Processor) (r : Round) (world : σ) :
    (p.process u sink r world).world =
      (partway u sink p world (if u.emits r then (p.gathered u r).entries else [])).world := by
  rw [← emission_eq]
  rfl

lemma process_outcomes (p : Processor) (r : Round) (world : σ) :
    (p.process u sink r world).report.emission.outcomes =
      (partway u sink p world (if u.emits r then (p.gathered u r).entries else [])).outcomes := by
  rw [← emission_eq]
  rfl

lemma process_diagnostics (p : Processor) (r : Round) (world : σ) :
    (p.process u sink r world).diagnostics =
      rejections u.settings.validationSeverity r.elements ++
          (p.store.collect u.resolver (eligible r.elements)).diagnostics ++
        (partway u sink p world
          (if u.emits r then (p.gathered u r).entries else [])).diagnostics := by
  rw [← emission_eq, process_eq]
  rfl

lemma collected_not_isAbout {store : Store} {es : List Element} {x : Diagnostic}
    (h : x ∈ (store.collect u.resolver es).diagnostics) (d : DeclaringType) :
    x.isAbout d = false := by
  have hfile : ∀ (c : Collected), (∀ y ∈ c.diagnostics, y.isAbout d = false) →
      ∀ y ∈ (es.foldl (Collected.file u.resolver) c).diagnostics, y.isAbout d = false := by
    clear h
    induction es with
    | nil => exact fun c hc => hc
    | cons e es ih =>
      refine fun c hc => ih _ ?_
      unfold Collected.file
      cases e.build u.resolver with
      | ok r =>
        simp only
        split <;> exact hc
      | error err =>
        intro y hy
        rcases List.mem_append.1 hy with hy | hy
        · exact hc y hy
        · rw [List.mem_singleton.1 hy]
          rfl
  exact hfile _ (by simp [Collected.start]) x h

/-- What a round shows of a type is what its pass shows: the diagnostics about elements are about
no helper. -/
lemma view_process (p : Processor) (r : Round) (world : σ) (d : DeclaringType) :
    (p.process u sink r world).view d =
      (partway u sink p world (if u.emits r then (p.gathered u r).entries else [])).view d := by
  rw [← emission_eq]
  have hrej : (rejections u.settings.validationSeverity r.elements).filter (·.isAbout d) = [] := by
    rw [List.filter_eq_nil_iff]
    intro x hx
    obtain ⟨e, -, he⟩ := List.mem_filterMap.1 hx
    unfold Element.check at he
    split at he
    · cases he
    · cases he
      exact Bool.false_ne_true
  have hcol : ((p.store.collect u.resolver (eligible r.elements)).diagnostics).filter
      (·.isAbout d) = [] := by
    rw [List.filter_eq_nil_iff]
    intro x hx
    rw [collected_not_isAbout u hx]
    exact Bool.false_ne_true
  simp only [Step.view, Pass.view, process_eq, gathered, List.filter_append, hrej, hcol,
    List.nil_append]

variable {u sink}

/-- A round that puts emission off, or has nothing stored of a type, does nothing for it. -/
lemma view_process_of_idle {p : Processor} {r : Round} {d : DeclaringType} (world : σ)
    (h : u.emits r = false ∨ ∀ e ∈ (p.gathered u r).entries, e.1.same d = false) :
    (p.process u sink r world).view d = ⟨p.emitted.get? d, [], []⟩ := by
  rw [view_process]
  rcases h with h | h
  · rw [h]
    rfl
  · split
    · exact view_foldl_of_not_same h _
    · rfl

/-- A round either does nothing for a type or visits it once. -/
lemma idle_or_split (u : Setup) (p : Processor) (r : Round) (d : DeclaringType) :
    (u.emits r = false ∨ ∀ e ∈ (p.gathered u r).entries, e.1.same d = false) ∨
    (u.emits r = true ∧ ∃ t fields front rest,
      (p.gathered u r).entries = front ++ (t, fields) :: rest ∧ t.same d = true) := by
  cases he : u.emits r with
  | false => exact Or.inl (Or.inl rfl)
  | true =>
    by_cases hstored : ∃ e ∈ (p.gathered u r).entries, e.1.same d = true
    · obtain ⟨⟨t, fields⟩, hm, ht⟩ := hstored
      obtain ⟨front, rest, hs⟩ := List.append_of_mem hm
      exact Or.inr ⟨rfl, t, fields, front, rest, hs, ht⟩
    · refine Or.inl (Or.inr fun e hm => ?_)
      rw [Bool.eq_false_iff]
      exact fun ht => hstored ⟨e, hm, ht⟩

lemma process_world_of_split (sink : Sink σ) (world : σ) {p : Processor} {r : Round}
    {e : DeclaringType × FieldSet} {front rest : List (DeclaringType × FieldSet)}
    (he : u.emits r = true) (hs : (p.gathered u r).entries = front ++ e :: rest) :
    (p.process u sink r world).world =
      (rest.foldl (Pass.visit u sink) ((partway u sink p world front).visit u sink e)).world := by
  rw [process_world, if_pos he, hs]
  simp only [partway, List.foldl_append, List.foldl_cons]

/-- What an emitting round does for a stored type is what the one visit to it does. -/
lemma view_process_of_split (sink : Sink σ) (world : σ) {p : Processor} {r : Round}
    {t d : DeclaringType} {fields : FieldSet} {front rest : List (DeclaringType × FieldSet)}
    (he : u.emits r = true)
    (hs : (p.gathered u r).entries = front ++ (t, fields) :: rest) (ht : t.same d = true) :
    (partway u sink p world front).view d = ⟨p.emitted.get? d, [], []⟩ ∧
      (p.process u sink r world).view d =
        ((partway u sink p world front).visit u sink (t, fields)).view d := by
  have hd := (p.gathered u r).distinct
  rw [hs, List.pairwise_append, List.pairwise_cons] at hd
  obtain ⟨-, ⟨hrest, -⟩, hfront⟩ := hd
  have hf : ∀ e ∈ front, e.1.same d = false := fun e hm => by
    rw [← DeclaringType.same_congr_right ht]
    exact hfront e hm (t, fields) List.mem_cons_self
  have hr : ∀ e ∈ rest, e.1.same d = false := fun e hm => by
    rw [← DeclaringType.same_congr_right ht, DeclaringType.same_comm]
    exact hrest e hm
  refine ⟨view_foldl_of_not_same hf _, ?_⟩
  calc (p.process u sink r world).view d
      = (partway u sink p world (front ++ (t, fields) :: rest)).view d := by
        rw [view_process, he, if_pos rfl, hs]
    _ = (rest.foldl (Pass.visit u sink)
          ((partway u sink p world front).visit u sink (t, fields))).view d := by
        simp only [partway, List.foldl_append, List.foldl_cons]
    _ = ((partway u sink p world front).visit u sink (t, fields)).view d :=
        view_foldl_of_not_same hr _

/-- What a round may do for a type: nothing, if it puts emission off or has nothing stored of the
type; pass over a helper that has been written; or try to write it, in the world that the visits to
the types before it have left. -/
inductive Treated (u : Setup) (sink : Sink σ) (p : Processor) (r : Round) (world : σ)
    (d : DeclaringType) (v : View) : Prop where
  | idle (h : u.emits r = false ∨ ∀ e ∈ (p.gathered u r).entries, e.1.same d = false)
      (hv : v = ⟨p.emitted.get? d, [], []⟩)
  | known (t : DeclaringType) (fields : FieldSet) (n : Nat) (hu : u.settings.reemit ≠ .attempt)
      (he : u.emits r = true) (hm : (t, fields) ∈ (p.gathered u r).entries)
      (ht : t.same d = true) (hn : p.emitted.get? d = some n)
      (hv : v = ⟨some (max n fields.size), [.skipped (u.driver.helperName t).artifact],
        if n < fields.size then [lateNotice t (fields.toList.drop n)] else []⟩)
  | tried (t : DeclaringType) (fields : FieldSet) (front rest : List (DeclaringType × FieldSet))
      (he : u.emits r = true) (hs : (p.gathered u r).entries = front ++ (t, fields) :: rest)
      (ht : t.same d = true) (hn : u.settings.reemit = .attempt ∨ p.emitted.get? d = none)
      (hv : v =
        let attempt := (u.driver.emit sink t fields (partway u sink p world front).world).1
        ⟨if attempt.1.isWritten then some fields.size else p.emitted.get? d, [attempt.1],
          attempt.2⟩)

/-- **A round does one of three things for a type.** -/
lemma view_process_cases (u : Setup) (sink : Sink σ) (p : Processor) (r : Round) (world : σ)
    (d : DeclaringType) : Treated u sink p r world d ((p.process u sink r world).view d) := by
  rcases idle_or_split u p r d with hidle | ⟨he, t, fields, front, rest, hs, ht⟩
  · exact .idle hidle (view_process_of_idle world hidle)
  · obtain ⟨hbefore, hview⟩ := view_process_of_split sink world he hs ht
    have hknown : (partway u sink p world front).emitted.get? t = p.emitted.get? d :=
      (Emitted.get?_congr ht _).trans (congrArg View.known hbefore)
    rw [hview]
    rcases visit_cases u sink (partway u sink p world front) (t, fields) with
      ⟨n, hu, hn, -⟩ | ⟨hn, -⟩
    · have hm : (t, fields) ∈ (p.gathered u r).entries := hs ▸ List.mem_append_cons_self
      refine .known t fields n hu he hm ht (hknown.symm.trans hn) ?_
      rw [view_visit_of_known _ hu ht ((congrArg View.known hbefore).trans
        (hknown.symm.trans hn)), hbefore]
      rfl
    · have hn : u.settings.reemit = .attempt ∨ p.emitted.get? d = none :=
        hn.imp_right hknown.symm.trans
      refine .tried t fields front rest he hs ht hn ?_
      rw [view_visit_of_tried _ ht (hn.imp_right (congrArg View.known hbefore).trans), hbefore]
      rfl

end Processor

end SavedState
