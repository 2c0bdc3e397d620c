import Mathlib.Data.List.DropRight
import Mathlib.Data.List.Induction
import SavedState.Proofs.Pass

/-!
Where written helpers are left alone, each type is written at most once, and no record is lost.

A type is pending until its helper is written; nothing but failures is reported of it so far.
From then on it is settled: each pass only warns about the records that came since the last one.
Its number among the emitted types counts the records that are in the helper or were warned
about, which is what carries the account from round to round.
-/

namespace SavedState

/-- Whether a diagnostic is the warning about late records of `d`. -/
def Diagnostic.isLateFor (d : DeclaringType) (x : Diagnostic) : Bool :=
  x.isAbout d && lateWords.toList.isPrefixOf x.message.toList

namespace Processor

lemma isLateFor_lateNotice (t d : DeclaringType) (records : List FieldRecord) :
    (lateNotice t records).isLateFor d = t.same d := by
  have : lateWords.toList.isPrefixOf (lateNotice t records).message.toList = true := by
    rw [List.isPrefixOf_iff_prefix]
    change lateWords.toList <+: (lateWords ++ _).toList
    rw [String.toList_append]
    exact List.prefix_append _ _
  rw [Diagnostic.isLateFor, this, Bool.and_true]
  rfl

/-- A failure is not taken for a warning about late records. -/
lemma isLateFor_failure (severity : Severity) (t d : DeclaringType) (e : ArtifactError) :
    (⟨severity, .type t, e.message⟩ : Diagnostic).isLateFor d = false := by
  have : lateWords.toList.isPrefixOf e.message.toList = false := by
    rw [Bool.eq_false_iff, ne_eq, List.isPrefixOf_iff_prefix]
    rintro ⟨rest, h⟩
    -- the two messages differ in their first letters
    have hlate : lateWords.toList.head? = some 'h' := by simp [lateWords]
    have hfail : e.message.toList.head? = some 'i' := by
      unfold ArtifactError.message
      simp
    rw [← h, List.head?_append, hlate] at hfail
    simp at hfail
  rw [Diagnostic.isLateFor, this, Bool.and_false]

/-- What comes before the last emitting round, and that round. -/
def upToEmission (u : Setup) (rounds : List Round) : List Round :=
  rounds.rdropWhile fun r => !u.emits r

variable {σ : Type} {u : Setup} (sink : Sink σ) (world : σ) {d t : DeclaringType} {p : Processor}

/-! ### Steps -/

/-- A pending type is left out, or its helper is tried once, after those of the types before it. -/
lemma view_process_of_pending (r : Round) (hn : p.emitted.get? d = none) :
    (p.process u sink r world).view d = ⟨none, [], []⟩ ∨
    ∃ t fields front rest, u.emits r = true ∧
      (p.gathered u r).entries = front ++ (t, fields) :: rest ∧ t.same d = true ∧
      (p.process u sink r world).view d =
        let attempt := (u.driver.emit sink t fields (partway u sink p world front).world).1
        ⟨if attempt.1.isWritten then some fields.size else none, [attempt.1], attempt.2⟩ := by
  cases view_process_cases u sink p r world d with
  | idle _ hv => exact Or.inl (by rw [hv, hn])
  | known _ _ n _ _ _ _ hn' _ =>
    rw [hn] at hn'
    cases hn'
  | tried t fields front rest he hs ht _ hv =>
    exact Or.inr ⟨t, fields, front, rest, he, hs, ht, by rw [hv, hn]⟩

/-- A settled type is passed over, with a warning if records have come since. -/
lemma view_process_of_settled (r : Round) (hu : u.settings.reemit ≠ .attempt)
    (ht : t.same d = true) {n : Nat} (hn : p.emitted.get? d = some n) {fields : FieldSet}
    (hm : (t, fields) ∈ p.store.entries) (hle : n ≤ fields.size) :
    ∃ fields', (t, fields') ∈ (p.gathered u r).entries ∧ fields.toList <+: fields'.toList ∧
      (p.process u sink r world).view d =
        if u.emits r then
          ⟨some fields'.size, [.skipped (u.driver.helperName t).artifact],
            if n < fields'.size then [lateNotice t (fields'.toList.drop n)] else []⟩
        else ⟨some n, [], []⟩ := by
  obtain ⟨fields', hm', hp⟩ := extends_gathered u p r t fields hm
  refine ⟨fields', hm', hp, ?_⟩
  cases he : u.emits r with
  | false =>
    rw [view_process_of_idle world (Or.inl he), hn]
    rfl
  | true =>
    obtain ⟨front, rest, hs⟩ := List.append_of_mem hm'
    obtain ⟨hbefore, hview⟩ := view_process_of_split sink world he hs ht
    have hmax : max n fields'.size = fields'.size :=
      Nat.max_eq_right (Nat.le_trans hle hp.length_le)
    rw [hview, view_visit_of_known _ hu ht (by rw [hbefore, hn]), hbefore, hmax, if_pos rfl]
    rfl

/-! ### The account of a type -/

/-- Nothing but failures has been reported of the helper of `d`. -/
structure Pending (history : List (Step σ)) (p : Processor) (d : DeclaringType) : Prop where
  known : p.emitted.get? d = none
  failed : ∀ s ∈ history, ∀ o ∈ (s.view d).outcomes, o.isFailed = true
  silent : ∀ s ∈ history, s.diagnostics.filter (·.isLateFor d) = []

/-- The helper of `d`, which is stored as `t`, has been written once. -/
structure Settled (u : Setup) (history : List (Step σ)) (p : Processor) (d t : DeclaringType) :
    Prop where
  same : t.same d = true
  stored : ∃ fields n, (t, fields) ∈ p.store.entries ∧ p.emitted.get? d = some n ∧ n ≤ fields.size
  once : (history.flatMap fun s => (s.view d).outcomes).countP Outcome.isWritten = 1
  written : ∃ s ∈ history, ∃ n,
    Outcome.written (u.driver.helperName t).artifact n ∈ (s.view d).outcomes

lemma filter_isLateFor (s : Step σ) (d : DeclaringType) :
    s.diagnostics.filter (·.isLateFor d) = (s.view d).diagnostics.filter (·.isLateFor d) := by
  unfold Step.view
  rw [List.filter_filter]
  refine List.filter_congr fun x _ => ?_
  unfold Diagnostic.isLateFor
  cases x.isAbout d <;> simp

lemma filter_isLateFor_emit (v : Driver) (fields : FieldSet) (start : σ) :
    (v.emit sink t fields start).1.2.filter (·.isLateFor d) = [] := by
  rcases emit_cases sink v t fields start with h | ⟨e, h⟩
  · rw [h]
    rfl
  · rw [h, List.filter_singleton, isLateFor_failure]
    rfl

variable {history : List (Step σ)}

lemma Pending.countP_isWritten (h : Pending history p d) :
    (history.flatMap fun s => (s.view d).outcomes).countP Outcome.isWritten = 0 := by
  rw [List.countP_eq_zero]
  intro o ho
  obtain ⟨s, hs, ho⟩ := List.mem_flatMap.1 ho
  have := h.failed s hs o ho
  cases o <;> simp_all [Outcome.isWritten, Outcome.isFailed]

lemma Pending.concat (h : Pending history p d) {s : Step σ} (hk : (s.view d).known = none)
    (hf : ∀ o ∈ (s.view d).outcomes, o.isFailed = true)
    (hl : (s.view d).diagnostics.filter (·.isLateFor d) = []) :
    Pending (history ++ [s]) s.processor d := by
  refine ⟨hk, ?_, ?_⟩
  · simp only [List.mem_append, List.mem_singleton]
    rintro x (hx | rfl)
    · exact h.failed x hx
    · exact hf
  · simp only [List.mem_append, List.mem_singleton]
    rintro x (hx | rfl)
    · exact h.silent x hx
    · rw [filter_isLateFor, hl]

lemma Pending.next (h : Pending history p d) (r : Round) :
    let s := p.process u sink r world
    Pending (history ++ [s]) s.processor d ∨
      ∃ t, Settled u (history ++ [s]) s.processor d t := by
  intro s
  rcases view_process_of_pending sink world r h.known with
    hv | ⟨t, fields, front, rest, -, hs, ht, hv⟩
  · have hv : s.view d = ⟨none, [], []⟩ := hv
    exact Or.inl (h.concat (by rw [hv]) (by simp [hv]) (by simp [hv]))
  · have hm : (t, fields) ∈ (p.gathered u r).entries := hs ▸ List.mem_append_cons_self
    rcases emit_cases sink u.driver t fields (partway u sink p world front).world with
      he | ⟨e, he⟩
    · rw [he] at hv
      have hw : s.view d =
          ⟨some fields.size, [.written (u.driver.helperName t).artifact fields.size], []⟩ := hv
      refine Or.inr ⟨t, ht, ⟨fields, fields.size, hm, congrArg View.known hw, Nat.le_refl _⟩, ?_,
        s, by simp, fields.size, by simp [hw]⟩
      rw [List.flatMap_append, List.countP_append, h.countP_isWritten]
      simp [hw, Outcome.isWritten]
    · have hl := filter_isLateFor_emit sink (t := t) (d := d) u.driver fields
        (partway u sink p world front).world
      rw [he] at hv hl
      exact Or.inl (h.concat (by rw [hv]; rfl) (by rw [hv]; simp [Outcome.isFailed])
        (by rw [hv]; exact hl))

lemma Settled.next (h : Settled u history p d t) (hu : u.settings.reemit ≠ .attempt) (r : Round) :
    Settled u (history ++ [p.process u sink r world]) (p.process u sink r world).processor d t := by
  obtain ⟨ht, ⟨fields, n, hm, hn, hle⟩, honce, s, hs, hw⟩ := h
  obtain ⟨fields', hm', hp, hv⟩ :=
    view_process_of_settled sink world r hu ht hn hm hle
  refine ⟨ht, ?_, ?_, s, List.mem_append_left _ hs, hw⟩
  · have hk := congrArg View.known hv
    cases he : u.emits r with
    | true =>
      rw [he, if_pos rfl] at hk
      exact ⟨fields', fields'.size, hm', hk, Nat.le_refl _⟩
    | false =>
      rw [he, if_neg Bool.false_ne_true] at hk
      exact ⟨fields', n, hm', hk, Nat.le_trans hle hp.length_le⟩
  · rw [List.flatMap_append, List.countP_append, honce, List.flatMap_singleton, hv]
    split <;> simp [Outcome.isWritten]

/-- **A type is pending, or settled for good.** -/
lemma pending_or_settled (hu : u.settings.reemit ≠ .attempt) (rounds : List Round)
    (d : DeclaringType) :
    Pending (steps u sink fresh world rounds) (after u sink fresh world rounds).1 d ∨
      ∃ t, Settled u (steps u sink fresh world rounds) (after u sink fresh world rounds).1 d t := by
  induction rounds using List.reverseRecOn with
  | nil => exact Or.inl ⟨rfl, by simp, by simp⟩
  | append_singleton rounds r ih =>
    rw [steps_concat, after_concat]
    rcases ih with h | ⟨t, h⟩
    · exact h.next sink _ r
    · exact Or.inr ⟨t, h.next sink _ hu r⟩

/-! ### After the helper has been written -/

lemma steps_of_settled (hu : u.settings.reemit ≠ .attempt) (ht : t.same d = true)
    (rounds : List Round) {n : Nat} (hn : p.emitted.get? d = some n) {fields : FieldSet}
    (hm : (t, fields) ∈ p.store.entries) (hle : n ≤ fields.size) :
    List.Forall₂ (fun r s => (s.view d).outcomes =
        if u.emits r then [.skipped (u.driver.helperName t).artifact] else [])
      rounds (steps u sink p world rounds) := by
  induction rounds generalizing p world n fields with
  | nil => exact List.Forall₂.nil
  | cons r rounds ih =>
    obtain ⟨fields', hm', hp, hv⟩ := view_process_of_settled sink world r hu ht hn hm hle
    rw [steps_cons]
    cases he : u.emits r with
    | true =>
      rw [he, if_pos rfl] at hv
      refine List.Forall₂.cons ?_ (ih _ (congrArg View.known hv) hm' (Nat.le_refl _))
      rw [hv, he, if_pos rfl]
    | false =>
      rw [he, if_neg Bool.false_ne_true] at hv
      refine List.Forall₂.cons ?_
        (ih _ (congrArg View.known hv) hm' (Nat.le_trans hle hp.length_le))
      rw [hv, he, if_neg Bool.false_ne_true]

variable {sink} {other : Sink σ}

lemma emit_congr {v : Driver} (h : other.create (v.helperName t) t = sink.create (v.helperName t) t)
    (fields : FieldSet) : v.emit other t fields world = v.emit sink t fields world := by
  unfold Driver.emit Driver.write Driver.perform
  rw [h]

lemma foldl_visit_congr (hu : u.settings.reemit ≠ .attempt)
    (ho : ∀ name t, t.same d = false → other.create name t = sink.create name t)
    (l : List (DeclaringType × FieldSet)) {pass : Pass σ} {n : Nat}
    (hn : (pass.view d).known = some n) :
    l.foldl (Pass.visit u other) pass = l.foldl (Pass.visit u sink) pass := by
  induction l generalizing pass n with
  | nil => rfl
  | cons e l ih =>
    have hvisit : pass.visit u other e = pass.visit u sink e := by
      unfold Pass.visit
      rw [if_neg hu]
      cases hk : pass.emitted.get? e.1 with
      | some m => rfl
      | none =>
        have hs : e.1.same d = false := by
          rw [Bool.eq_false_iff]
          intro hs
          cases hk.symm.trans ((Emitted.get?_congr hs _).trans hn)
        unfold Pass.emit
        rw [emit_congr _ (ho _ _ hs)]
    rw [List.foldl_cons, List.foldl_cons, hvisit]
    cases hs : e.1.same d with
    | true => exact ih (congrArg View.known (view_visit_of_known pass hu hs hn))
    | false => exact ih ((congrArg View.known (view_visit_of_not_same pass hs)).trans hn)

/-- What the sink would do for a type that is written already does not matter. -/
lemma process_congr (hu : u.settings.reemit ≠ .attempt)
    (ho : ∀ name t, t.same d = false → other.create name t = sink.create name t) (r : Round)
    {n : Nat} (hn : p.emitted.get? d = some n) :
    p.process u other r world = p.process u sink r world := by
  have he : emission u other (p.gathered u r) p.emitted r.isFinal world =
      emission u sink (p.gathered u r) p.emitted r.isFinal world := by
    rw [emission_eq, emission_eq]
    exact foldl_visit_congr hu ho _ hn
  unfold gathered at he
  simp only [process_eq, he]

variable (sink)

lemma steps_congr (hu : u.settings.reemit ≠ .attempt)
    (ho : ∀ name t, t.same d = false → other.create name t = sink.create name t)
    (ht : t.same d = true) (rounds : List Round) {n : Nat} (hn : p.emitted.get? d = some n)
    {fields : FieldSet} (hm : (t, fields) ∈ p.store.entries) (hle : n ≤ fields.size) :
    steps u other p world rounds = steps u sink p world rounds := by
  induction rounds generalizing p world n fields with
  | nil => rfl
  | cons r rounds ih =>
    obtain ⟨fields', hm', hp, hv⟩ := view_process_of_settled sink world r hu ht hn hm hle
    rw [steps_cons, steps_cons, process_congr world hu ho r hn]
    congr 1
    cases he : u.emits r with
    | true =>
      rw [he, if_pos rfl] at hv
      exact ih _ (congrArg View.known hv) hm' (Nat.le_refl _)
    | false =>
      rw [he, if_neg Bool.false_ne_true] at hv
      exact ih _ (congrArg View.known hv) hm' (Nat.le_trans hle hp.length_le)

/-- The warnings of all rounds name what came after the helper, each record once. -/
lemma late_records (hu : u.settings.reemit ≠ .attempt) (ht : t.same d = true) {fields : FieldSet}
    (hm : (t, fields) ∈ p.store.entries) (hn : p.emitted.get? d = some fields.size)
    (rounds : List Round) :
    ∃ (settled : FieldSet) (late : List (List FieldRecord)),
      (t, settled) ∈ (after u sink p world (upToEmission u rounds)).1.store.entries ∧
      settled.toList = fields.toList ++ late.flatten ∧ [] ∉ late ∧
      (steps u sink p world rounds).flatMap (fun s => (s.view d).diagnostics) =
        late.map (lateNotice t) ∧
      (after u sink p world rounds).1.emitted.get? d = some settled.size ∧
      ∃ all, (t, all) ∈ (after u sink p world rounds).1.store.entries ∧
        settled.toList <+: all.toList := by
  induction rounds using List.reverseRecOn with
  | nil => exact ⟨fields, [], hm, by simp, by simp, rfl, hn, fields, hm, List.prefix_rfl⟩
  | append_singleton rounds r ih =>
    obtain ⟨settled, late, hs, happ, hne, hd, hk, all, hall, hpre⟩ := ih
    obtain ⟨fields', hm', hp, hv⟩ := view_process_of_settled sink
      (after u sink p world rounds).2 r hu ht hk hall hpre.length_le
    rw [steps_concat, after_concat, List.flatMap_append, List.flatMap_singleton, hd, hv]
    unfold upToEmission
    rw [List.rdropWhile_concat]
    cases he : u.emits r with
    | false =>
      rw [he, if_neg Bool.false_ne_true] at hv
      exact ⟨settled, late, hs, happ, hne, by simp, congrArg View.known hv, fields', hm',
        hpre.trans hp⟩
    | true =>
      rw [he, if_pos rfl] at hv
      rw [Bool.not_true, if_neg Bool.false_ne_true, if_pos rfl, after_concat]
      -- what is late is what the store has beyond the number that is known
      have hsplit : fields'.toList = settled.toList ++ fields'.toList.drop settled.size := by
        obtain ⟨rest, hrest⟩ := hpre.trans hp
        rw [← hrest, FieldSet.size, List.drop_left]
      by_cases hlt : settled.size < fields'.size
      · have hrest : fields'.toList.drop settled.size ≠ [] := by
          rw [ne_eq, List.drop_eq_nil_iff]
          exact Nat.not_le_of_lt hlt
        refine ⟨fields', late ++ [fields'.toList.drop settled.size], hm', ?_, ?_, ?_,
          congrArg View.known hv, fields', hm', List.prefix_rfl⟩
        · rw [List.flatten_append, List.flatten_singleton, ← List.append_assoc, ← happ]
          exact hsplit
        · simp [hne, hrest.symm]
        · simp [hlt]
      · have hrest : fields'.toList.drop settled.size = [] :=
          List.drop_eq_nil_iff.2 (Nat.le_of_not_lt hlt)
        rw [hrest, List.append_nil] at hsplit
        exact ⟨fields', late, hm', hsplit.trans happ, hne, by simp [hlt], congrArg View.known hv,
          fields', hm', List.prefix_rfl⟩

/-! ### Whole runs -/

lemma upToEmission_append_cons (before later : List Round) {r : Round} (he : u.emits r = true) :
    upToEmission u (before ++ r :: later) = before ++ r :: upToEmission u later := by
  unfold upToEmission
  induction later using List.reverseRecOn with
  | nil => rw [List.rdropWhile_concat_neg _ _ _ (by simp [he]), List.rdropWhile_nil]
  | append_singleton later x ih =>
    rw [← List.cons_append, ← List.append_assoc, List.rdropWhile_concat, List.rdropWhile_concat, ih]
    split <;> simp

/-- A helper is written in a round that found its type pending, with all records of the type. -/
lemma view_process_of_written (hp : Pending history p d) {r : Round} {a : String} {n : Nat}
    (hw : .written a n ∈ ((p.process u sink r world).view d).outcomes) :
    ∃ t fields front rest, u.emits r = true ∧
      (p.gathered u r).entries = front ++ (t, fields) :: rest ∧ t.same d = true ∧
      a = (u.driver.helperName t).artifact ∧ n = fields.size ∧
      (u.driver.emit sink t fields (partway u sink p world front).world).1 = (.written a n, []) ∧
      (p.process u sink r world).view d = ⟨some n, [.written a n], []⟩ := by
  rcases view_process_of_pending sink world r hp.known with
    hv | ⟨t, fields, front, rest, he, hs, ht, hv⟩
  · rw [hv] at hw
    exact absurd hw List.not_mem_nil
  · rcases emit_cases sink u.driver t fields (partway u sink p world front).world with
      hr | ⟨e, hr⟩
    · rw [hr] at hv
      rw [hv] at hw
      cases List.mem_singleton.1 hw
      exact ⟨t, fields, front, rest, he, hs, ht, rfl, rfl, hr, hv⟩
    · rw [hr] at hv
      rw [hv] at hw
      cases List.mem_singleton.1 hw

lemma not_skipped_of_pending (hp : Pending history p d) (r : Round) (a : String) :
    .skipped a ∉ ((p.process u sink r world).view d).outcomes := by
  intro h
  rcases view_process_of_pending sink world r hp.known with
    hv | ⟨t, fields, front, rest, -, -, -, hv⟩
  · rw [hv] at h
    exact absurd h List.not_mem_nil
  · rcases emit_cases sink u.driver t fields (partway u sink p world front).world with
      hr | ⟨e, hr⟩ <;>
    · rw [hr] at hv
      rw [hv] at h
      cases List.mem_singleton.1 h

lemma eq_skipped_of_settled (hs : Settled u history p d t) (hu : u.settings.reemit ≠ .attempt)
    (r : Round) {o : Outcome} (ho : o ∈ ((p.process u sink r world).view d).outcomes) :
    o = .skipped (u.driver.helperName t).artifact := by
  obtain ⟨ht, ⟨fields, n, hm, hn, hle⟩, -, -⟩ := hs
  obtain ⟨fields', -, -, hv⟩ := view_process_of_settled sink world r hu ht hn hm hle
  rw [hv] at ho
  split at ho
  · exact List.mem_singleton.1 ho
  · exact absurd ho List.not_mem_nil

lemma filter_flatMap_isLateFor (steps : List (Step σ)) (d : DeclaringType) :
    (steps.flatMap Step.diagnostics).filter (·.isLateFor d) =
      steps.flatMap fun s => (s.view d).diagnostics.filter (·.isLateFor d) := by
  rw [List.filter_flatMap]
  exact List.flatMap_congr fun s _ => filter_isLateFor s d

/-- **Written once, and no record lost.** Unless every type is tried in every round, a type gets
at most one written helper and is passed over only after that. The helper is written of the records
that the type has then, in the world that the visits to the types before it have left. Once it is
written, each emitting round passes it over, and what the sink would do for it has no bearing on
anything. The records in the helper, with those that the warnings name from round to round, are the
records that the store had of the type at the last emission. -/
theorem written_once_and_late_records_named (u : Setup) (hu : u.settings.reemit ≠ .attempt)
    (sink : Sink σ) (world : σ) (rounds : List Round) (d : DeclaringType) :
    ((steps u sink fresh world rounds).flatMap fun s => (s.view d).outcomes).countP
        Outcome.isWritten ≤ 1 ∧
      ∀ before r later, rounds = before ++ r :: later →
        let h := run u sink before world
        let s := h.processor.process u sink r h.world
        (∀ a, .skipped a ∈ (s.view d).outcomes →
          ∃ s' ∈ steps u sink fresh world before, ∃ n, .written a n ∈ (s'.view d).outcomes) ∧
        ∀ a n, .written a n ∈ (s.view d).outcomes →
          List.Forall₂ (fun r' s' => (s'.view d).outcomes = if u.emits r' then [.skipped a] else [])
            later (steps u sink s.processor s.world later) ∧
          (∀ other : Sink σ,
            (∀ name t, t.same d = false → other.create name t = sink.create name t) →
            steps u other s.processor s.world later = steps u sink s.processor s.world later) ∧
          ∃ t fields front rest settled, ∃ late : List (List FieldRecord),
            s.processor.store.entries = front ++ (t, fields) :: rest ∧ t.same d = true ∧
            fields.size = n ∧
            (u.driver.emit sink t fields (partway u sink h.processor h.world front).world).1 =
              (.written a n, []) ∧
            (run u sink rounds world).diagnostics.filter (·.isLateFor d) =
              late.map (lateNotice t) ∧ [] ∉ late ∧
            (t, settled) ∈ (run u sink (upToEmission u rounds) world).processor.store.entries ∧
            settled.toList = fields.toList ++ late.flatten := by
  constructor
  · rcases pending_or_settled sink world hu rounds d with h | ⟨t, h⟩
    · rw [h.countP_isWritten]
      exact Nat.zero_le 1
    · exact Nat.le_of_eq h.once
  rintro before r later rfl h s
  set q := after u sink fresh world before with hq
  have hprocessor : h.processor = q.1 := by simp only [h, run_eq, ← hq]
  have hworld : h.world = q.2 := by simp only [h, run_eq, ← hq]
  have hs : s = q.1.process u sink r q.2 := by simp only [s, hprocessor, hworld]
  rw [hs, hprocessor, hworld]
  clear_value s h
  subst hs
  have haccount := pending_or_settled sink world hu before d
  rw [← hq] at haccount
  rcases haccount with hp | ⟨t, hset⟩
  · refine ⟨fun a ha => absurd ha (not_skipped_of_pending sink _ hp r a), fun a n hw => ?_⟩
    obtain ⟨t, fields, front, rest, he, hsplit, ht, rfl, rfl, hemit, hv⟩ :=
      view_process_of_written sink _ hp hw
    have hm : (t, fields) ∈ (q.1.gathered u r).entries := hsplit ▸ List.mem_append_cons_self
    have hn := congrArg View.known hv
    set s := q.1.process u sink r q.2 with hs
    obtain ⟨settled, late, hset, happ, hne, hlate, -⟩ :=
      late_records sink s.world hu ht hm hn later
    refine ⟨steps_of_settled sink _ hu ht later hn hm (Nat.le_refl _),
      fun other ho => steps_congr sink _ hu ho ht later hn hm (Nat.le_refl _),
      t, fields, front, rest, settled, late, hsplit, ht, rfl, hemit, ?_, hne, ?_, happ⟩
    · have hbefore : ((steps u sink fresh world before).flatMap Step.diagnostics).filter
          (·.isLateFor d) = [] := by
        rw [List.filter_flatMap, List.flatMap_eq_nil_iff]
        exact hp.silent
      have hlater : ((steps u sink s.processor s.world later).flatMap Step.diagnostics).filter
          (·.isLateFor d) = late.map (lateNotice t) := by
        rw [filter_flatMap_isLateFor, ← List.filter_flatMap, hlate, List.filter_eq_self]
        intro x hx
        obtain ⟨records, -, rfl⟩ := List.mem_map.1 hx
        rw [isLateFor_lateNotice, ht]
      rw [run_eq, steps_append, ← hq, steps_cons, ← hs, List.flatMap_append, List.filter_append,
        hbefore, List.nil_append, List.flatMap_cons, List.filter_append, hlater, filter_isLateFor,
        hv]
      rfl
    · rw [upToEmission_append_cons before later he, run_eq, after_append, ← hq, after_cons, ← hs]
      exact hset
  · refine ⟨fun a ha => ?_, fun a n hw => ?_⟩
    · cases eq_skipped_of_settled sink _ hset hu r ha
      exact hset.written
    · cases eq_skipped_of_settled sink _ hset hu r hw

/-- A class whose helper is refused once, then written with two records; a third one is late. -/
theorem written_once_and_late_records_named_refused_once :
    let u : Setup := ⟨.default, .constant .int, fun _ _ _ _ channel => channel.flush⟩
    let sink : Sink Nat := ⟨fun _ _ => do
      modify (· + 1)
      if (← get) = 1 then throw ⟨.other, "not yet"⟩
      return ⟨fun _ => pure (), pure ()⟩⟩
    let foo : DeclaringType := ⟨"a", "Foo"⟩
    let round (name : String) : Round := ⟨[⟨foo, name, .named "int", .empty⟩], false⟩
    let rounds := [round "x", round "y", round "z"]
    let h := run u sink [round "x"] 0
    let s := h.processor.process u sink (round "y") h.world
    u.settings.reemit ≠ .attempt ∧ .written "a.Foo$$Icicle" 2 ∈ (s.view foo).outcomes ∧
      List.Forall₂ (fun r s' => (s'.view foo).outcomes =
          if u.emits r then [.skipped "a.Foo$$Icicle"] else [])
        [round "z"] (steps u sink s.processor s.world [round "z"]) ∧
      ∃ (t : DeclaringType) (fields settled : FieldSet) (late : List (List FieldRecord)),
        fields.size = 2 ∧
        (run u sink rounds 0).diagnostics.filter (·.isLateFor foo) = late.map (lateNotice t) ∧
        (t, settled) ∈ (run u sink (upToEmission u rounds) 0).processor.store.entries ∧
        settled.toList = fields.toList ++ late.flatten := by
  intro u sink foo round rounds h s
  have hu : u.settings.reemit ≠ .attempt := by decide
  have hw : .written "a.Foo$$Icicle" 2 ∈ (s.view foo).outcomes := by decide +kernel
  obtain ⟨hnext, -, t, fields, front, rest, settled, late, -, -, hsize, -, hlate, -, hset, happ⟩ :=
    ((written_once_and_late_records_named u hu sink 0 rounds foo).2 [round "x"] (round "y")
      [round "z"] rfl).2 _ _ hw
  exact ⟨hu, hw, hnext, t, fields, settled, late, hsize, hlate, hset, happ⟩

end Processor

end SavedState
