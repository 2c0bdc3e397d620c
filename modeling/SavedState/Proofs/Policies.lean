import SavedState.Proofs.WholeHelpers
import SavedState.Proofs.WrittenOnce

/-!
The two policies that write a helper as soon as they can.

One passes over a type whose helper it knows to be written, the other one tries it again and is
refused, because the artifact is there. Neither touches the artifacts, so the two runs have the
same artifacts before every visit, and nothing else bears on what is written.
-/

namespace SavedState

/-- The same setup under another policy. -/
def Setup.under (u : Setup) (policy : ReemitPolicy) : Setup :=
  { u with settings := { u.settings with reemit := policy } }

/-- The helpers that a round reports as written, with the numbers of their records. -/
def RoundReport.helpers (r : RoundReport) : List (DeclaringType × Outcome) :=
  r.emission.outcomes.filter fun e => e.2.isWritten

namespace Processor

/-- Whether the helper of `d` has been reported as written. -/
def WrittenIn {σ : Type} (history : List (Step σ)) (d : DeclaringType) : Prop :=
  ∃ s ∈ history, ∃ a n, .written a n ∈ (s.view d).outcomes

/-- What is reported of one type by a round that passes over written helpers, and by a round that
tries them again. -/
structure Visit where
  type : DeclaringType
  skipping : Outcome × List Diagnostic
  attempting : Outcome × List Diagnostic

/-- A visit to a type whose helper is there. It is passed over, perhaps with a warning about late
records; or it fails, with one diagnostic that says so. -/
def Visit.IsRepeated (v : Driver) (x : Visit) : Prop :=
  let artifact := (v.helperName x.type).artifact
  (x.skipping = (.skipped artifact, []) ∨
    ∃ late, late ≠ [] ∧ x.skipping = (.skipped artifact, [lateNotice x.type late])) ∧
  ∃ e : IoError, let reason := ArtifactError.message ⟨artifact, e⟩
    x.attempting = (.failed artifact reason, [⟨v.severity, .type x.type, reason⟩])

/-- Two passes have left the same artifacts, and report what the visits say. -/
structure Beside (visits : List Visit) (pass pass' : Pass Artifacts) : Prop where
  world : pass'.world = pass.world
  outcomes : pass.outcomes = visits.map fun x => (x.type, x.skipping.1)
  outcomes' : pass'.outcomes = visits.map fun x => (x.type, x.attempting.1)
  diagnostics : pass.diagnostics = visits.flatMap fun x => x.skipping.2
  diagnostics' : pass'.diagnostics = visits.flatMap fun x => x.attempting.2

variable {u : Setup} (hu : u.emitter = HelperText.emitter) (t : Treatment)

/-! ### Visits -/

/-- What is known to be written is refused. -/
lemma emit_of_backed {s : Store} {emitted : Emitted} {w : Artifacts} (hb : Backed u s emitted w)
    {d : DeclaringType} {fields : FieldSet} (hm : (d, fields) ∈ s.entries) {n : Nat}
    (hn : emitted.get? d = some n) :
    let artifact := (u.driver.helperName d).artifact
    ∃ e : IoError, let reason := ArtifactError.message ⟨artifact, e⟩
      u.driver.emit t.sink d fields w =
        ((.failed artifact reason, [⟨u.driver.severity, .type d, reason⟩]), w) := by
  have hthere := hb.mem_names hm hn
  have hrefused : ¬t.Accepts w (u.driver.helperName d).artifact := fun ha => ha.2 hthere
  obtain ⟨e, he⟩ := t.run_create_of_not_accepts d hrefused
  exact ⟨e, Driver.emit_of_error (Driver.perform_of_not_created fields he)⟩

lemma Beside.concat {visits : List Visit} {pass pass' next next' : Pass Artifacts}
    (h : Beside visits pass pass') (x : Visit) (hworld : next'.world = next.world)
    (ho : next.outcomes = pass.outcomes ++ [(x.type, x.skipping.1)])
    (ho' : next'.outcomes = pass'.outcomes ++ [(x.type, x.attempting.1)])
    (hd : next.diagnostics = pass.diagnostics ++ x.skipping.2)
    (hd' : next'.diagnostics = pass'.diagnostics ++ x.attempting.2) :
    Beside (visits ++ [x]) next next' := by
  refine ⟨hworld, ?_, ?_, ?_, ?_⟩
  · rw [ho, h.outcomes, List.map_append, List.map_singleton]
  · rw [ho', h.outcomes', List.map_append, List.map_singleton]
  · rw [hd, h.diagnostics, List.flatMap_append, List.flatMap_singleton]
  · rw [hd', h.diagnostics', List.flatMap_append, List.flatMap_singleton]

lemma beside_visit {visits : List Visit} {pass pass' : Pass Artifacts}
    (h : Beside visits pass pass') {s : Store} (hb : Backed u s pass.emitted pass.world)
    {e : DeclaringType × FieldSet} (hm : e ∈ s.entries) :
    ∃ x : Visit, x.type = e.1 ∧
      Beside (visits ++ [x]) (pass.visit (u.under .skip) t.sink e)
        (pass'.visit (u.under .attempt) t.sink e) ∧
      if (pass.emitted.get? e.1).isSome then x.IsRepeated u.driver
      else x.skipping = x.attempting := by
  have hattempt : pass'.visit (u.under .attempt) t.sink e =
      pass'.emit (u.under .attempt) t.sink e.1 e.2 := rfl
  rw [hattempt]
  cases hn : pass.emitted.get? e.1 with
  | none =>
    have hskip : pass.visit (u.under .skip) t.sink e =
        pass.emit (u.under .skip) t.sink e.1 e.2 := by
      unfold Pass.visit
      rw [hn]
      rfl
    -- the attempt is the same on both sides
    let attempt := u.driver.emit t.sink e.1 e.2 pass.world
    refine ⟨⟨e.1, attempt.1, attempt.1⟩, rfl, ?_, rfl⟩
    rw [hskip]
    unfold Pass.emit
    rw [h.world]
    exact h.concat _ rfl rfl rfl rfl rfl
  | some n =>
    have hskip : pass.visit (u.under .skip) t.sink e =
        pass.skip (u.under .skip) e.1 e.2 n := by
      unfold Pass.visit
      rw [hn]
      rfl
    obtain ⟨err, herr⟩ := emit_of_backed t hb hm hn
    let late := e.2.toList.drop n
    let warnings := if n < e.2.size then [lateNotice e.1 late] else []
    let artifact := (u.driver.helperName e.1).artifact
    let reason := ArtifactError.message ⟨artifact, err⟩
    refine ⟨⟨e.1, (.skipped artifact, warnings),
      (.failed artifact reason, [⟨u.driver.severity, .type e.1, reason⟩])⟩, rfl, ?_, ?_, err, rfl⟩
    · have hfailed : (u.under .attempt).driver.emit t.sink e.1 e.2 pass'.world =
          ((.failed artifact reason, [⟨u.driver.severity, .type e.1, reason⟩]), pass.world) := by
        rw [h.world]
        exact herr
      rw [hskip]
      unfold Pass.emit Pass.skip
      rw [hfailed]
      by_cases hlt : n < e.2.size
      · simp only [warnings, if_pos hlt]
        exact h.concat _ rfl rfl rfl rfl rfl
      · simp only [warnings, if_neg hlt]
        exact h.concat _ rfl rfl rfl (List.append_nil _).symm rfl
    · simp only [warnings]
      split
      · rename_i hlt
        refine Or.inr ⟨late, ?_, rfl⟩
        rw [ne_eq, List.drop_eq_nil_iff]
        exact Nat.not_le_of_lt hlt
      · exact Or.inl rfl

/-! ### Rounds -/

lemma under_emits {policy : ReemitPolicy} (h : policy ≠ .finalRound) (r : Round) :
    (u.under policy).emits r = true := by
  unfold Setup.emits
  rw [Bool.or_eq_true, bne_iff_ne]
  exact Or.inl h

include hu

/-- Two passes over the same types stay beside each other. -/
lemma beside_partway {p p' : Processor} {world : Artifacts} (r : Round)
    (hb : Backed u p.store p.emitted world) {front : List (DeclaringType × FieldSet)}
    (hf : front ⊆ (p.gathered u r).entries)
    (hdistinct : front.Pairwise fun a b => a.1.same b.1 = false) :
    ∃ visits : List Visit, visits.map Visit.type = front.map (·.1) ∧
      Beside visits (partway (u.under .skip) t.sink p world front)
        (partway (u.under .attempt) t.sink p' world front) ∧
      ∀ x ∈ visits, if (p.emitted.get? x.type).isSome then x.IsRepeated u.driver
        else x.skipping = x.attempting := by
  induction front using List.reverseRecOn with
  | nil => exact ⟨[], rfl, ⟨rfl, rfl, rfl, rfl, rfl⟩, List.forall_mem_nil _⟩
  | append_singleton front e ih =>
    rw [List.append_subset] at hf
    rw [List.pairwise_append] at hdistinct
    obtain ⟨visits, htypes, hbeside, hvisits⟩ := ih hf.1 hdistinct.1
    have hm : e ∈ (p.gathered u r).entries := hf.2 (List.mem_singleton_self e)
    have hbacked := Backed.partway (u := u.under .skip) hu t r hb hf.1
    obtain ⟨x, hx, hnext, hrepeated⟩ := beside_visit t hbeside hbacked hm
    refine ⟨visits ++ [x], ?_, ?_, ?_⟩
    · rw [List.map_append, List.map_append, htypes, List.map_singleton, List.map_singleton, hx]
    · unfold partway at hnext ⊢
      rw [List.foldl_append, List.foldl_append]
      exact hnext
    · -- what is known of the type was known when the round began
      have hknown : (partway (u.under .skip) t.sink p world front).emitted.get? e.1 =
          p.emitted.get? e.1 := by
        have hsame : ∀ f ∈ front, f.1.same e.1 = false := fun f hfm =>
          hdistinct.2.2 f hfm e (List.mem_singleton_self e)
        exact congrArg View.known (view_foldl_of_not_same hsame _)
      rw [hknown, ← hx] at hrepeated
      rw [List.forall_mem_append, List.forall_mem_singleton]
      exact ⟨hvisits, hrepeated⟩

omit hu

/-- Two rounds leave the same behind and take in their elements alike. They differ only in what
they report of types that are written already. -/
structure Alongside (v : Driver) (written : DeclaringType → Prop) (s s' : Step Artifacts) :
    Prop where
  world : s'.world = s.world
  store : s'.processor.store = s.processor.store
  report : s'.report = { s.report with
    emission := s'.report.emission, errors := s'.report.errors, warnings := s'.report.warnings }
  visits : ∃ (common : List Diagnostic) (visits : List Visit),
    s.report.emission.outcomes = visits.map (fun x => (x.type, x.skipping.1)) ∧
    s'.report.emission.outcomes = visits.map (fun x => (x.type, x.attempting.1)) ∧
    s.diagnostics = common ++ visits.flatMap (fun x => x.skipping.2) ∧
    s'.diagnostics = common ++ visits.flatMap (fun x => x.attempting.2) ∧
    ∀ x ∈ visits, (written x.type → x.IsRepeated v) ∧
      (¬written x.type → x.skipping = x.attempting)

lemma Visit.IsRepeated.not_written {v : Driver} {x : Visit} (h : x.IsRepeated v) :
    x.skipping.1.isWritten = false ∧ x.attempting.1.isWritten = false := by
  obtain ⟨hs | ⟨late, -, hs⟩, e, ha⟩ := h <;> rw [hs, ha] <;> exact ⟨rfl, rfl⟩

/-- The same helpers are reported as written. -/
lemma Alongside.helpers {v : Driver} {written : DeclaringType → Prop} {s s' : Step Artifacts}
    (h : Alongside v written s s') : s'.report.helpers = s.report.helpers := by
  obtain ⟨common, visits, ho, ho', -, -, hvisits⟩ := h.visits
  unfold RoundReport.helpers
  rw [ho, ho']
  clear ho ho'
  induction visits with
  | nil => rfl
  | cons x visits ih =>
    rw [List.forall_mem_cons] at hvisits
    obtain ⟨⟨hrepeated, hsame⟩, hvisits⟩ := hvisits
    rw [List.map_cons, List.map_cons, List.filter_cons, List.filter_cons, ih hvisits]
    by_cases hw : written x.type
    · obtain ⟨hs, ha⟩ := (hrepeated hw).not_written
      rw [hs, ha, if_neg Bool.false_ne_true, if_neg Bool.false_ne_true]
    · rw [hsame hw]

include hu

lemma process_alongside {p p' : Processor} (hstore : p'.store = p.store)
    (hrounds : p'.rounds = p.rounds) {world : Artifacts} (hb : Backed u p.store p.emitted world)
    (r : Round) :
    Alongside u.driver (fun d => (p.emitted.get? d).isSome)
      (p.process (u.under .skip) t.sink r world)
      (p'.process (u.under .attempt) t.sink r world) := by
  obtain ⟨visits, -, hbeside, hvisits⟩ := beside_partway hu t r hb
    (List.Subset.refl _) (p.gathered u r).distinct
  have hpass : emission (u.under .skip) t.sink (p.gathered u r) p.emitted r.isFinal world =
      partway (u.under .skip) t.sink p world (p.gathered u r).entries := by
    have h := emission_eq (u.under .skip) t.sink p r world
    rwa [under_emits (by decide), if_pos rfl] at h
  have hpass' : emission (u.under .attempt) t.sink (p.gathered u r) p'.emitted r.isFinal world =
      partway (u.under .attempt) t.sink p' world (p.gathered u r).entries := by
    have h := emission_eq (u.under .attempt) t.sink p' r world
    have hgathered : p'.gathered (u.under .attempt) r = p.gathered u r := by
      unfold gathered
      rw [hstore]
      rfl
    rwa [under_emits (by decide), if_pos rfl, hgathered] at h
  rw [← hpass, ← hpass'] at hbeside
  simp only [process_eq]
  rw [hstore, hrounds]
  refine ⟨hbeside.world, rfl, rfl, _, visits, hbeside.outcomes, hbeside.outcomes',
    congrArg _ hbeside.diagnostics, congrArg _ hbeside.diagnostics', fun x hx => ?_⟩
  have hv := hvisits x hx
  split at hv
  · rename_i hknown
    exact ⟨fun _ => hv, fun hno => absurd hknown hno⟩
  · rename_i hnew
    exact ⟨fun hknown => absurd hknown hnew, fun _ => hv⟩

/-! ### Whole runs -/

lemma backed_run {policy : ReemitPolicy} (rounds : List Round) (world : Artifacts) :
    let h := run (u.under policy) t.sink rounds world
    Backed u h.processor.store h.processor.emitted h.world := by
  rw [run_eq]
  exact backed_after (u := u.under policy) hu t rounds world

lemma run_beside (rounds : List Round) (world : Artifacts) :
    let skip := run (u.under .skip) t.sink rounds world
    let attempt := run (u.under .attempt) t.sink rounds world
    attempt.world = skip.world ∧ attempt.processor.store = skip.processor.store ∧
      attempt.processor.rounds = skip.processor.rounds ∧
      attempt.reports.map RoundReport.helpers = skip.reports.map RoundReport.helpers := by
  induction rounds using List.reverseRecOn with
  | nil => exact ⟨rfl, rfl, rfl, rfl⟩
  | append_singleton rounds r ih =>
    obtain ⟨hworld, hstore, hrounds, hhelpers⟩ := ih
    have h := process_alongside hu t hstore hrounds (backed_run hu t rounds world) r
    rw [run_concat, run_concat]
    unfold History.next
    rw [hworld]
    refine ⟨h.world, h.store, congrArg (· + 1) hrounds, ?_⟩
    rw [List.map_append, List.map_append, hhelpers, List.map_singleton, List.map_singleton,
      h.helpers]

omit hu

/-- Where written helpers are left alone, the known types are those reported as written. -/
lemma known_iff_writtenIn {σ : Type} (hu : u.settings.reemit ≠ .attempt) (sink : Sink σ)
    (rounds : List Round) (world : σ) (d : DeclaringType) :
    ((run u sink rounds world).processor.emitted.get? d).isSome ↔
      WrittenIn (steps u sink fresh world rounds) d := by
  rw [run_eq]
  rcases pending_or_settled sink world hu rounds d with h | ⟨t, h⟩
  · have hno : ¬WrittenIn (steps u sink fresh world rounds) d := by
      rintro ⟨s, hs, a, n, hw⟩
      exact Bool.false_ne_true (h.failed s hs _ hw)
    rw [h.known]
    exact iff_of_false Bool.false_ne_true hno
  · obtain ⟨fields, n, -, hn, -⟩ := h.stored
    obtain ⟨s, hs, m, hw⟩ := h.written
    rw [hn]
    exact iff_of_true rfl ⟨s, hs, _, m, hw⟩

/-- **Trying again writes nothing else.** A run that tries every type in every round ends with
the same artifacts and the same store as one that leaves written helpers alone, and reports the
same helpers as written in the same rounds. Each round differs only in what is reported of types
whose helper was written in an earlier round. -/
theorem attempt_run_alongside_skip_run (settings : Settings) (resolver : Resolver) (t : Treatment)
    (world : Artifacts) (rounds : List Round) :
    let u : Setup := ⟨settings, resolver, HelperText.emitter⟩
    let skip := run (u.under .skip) t.sink rounds world
    let attempt := run (u.under .attempt) t.sink rounds world
    attempt.world = skip.world ∧ attempt.processor.store = skip.processor.store ∧
      attempt.reports.map RoundReport.helpers = skip.reports.map RoundReport.helpers ∧
      ∀ before r later, rounds = before ++ r :: later →
        let h := run (u.under .skip) t.sink before world
        let h' := run (u.under .attempt) t.sink before world
        Alongside u.driver (WrittenIn (steps (u.under .skip) t.sink fresh world before))
          (h.processor.process (u.under .skip) t.sink r h.world)
          (h'.processor.process (u.under .attempt) t.sink r h'.world) := by
  intro u skip attempt
  have hu : u.emitter = HelperText.emitter := rfl
  have hskip : (u.under .skip).settings.reemit ≠ .attempt := nofun
  obtain ⟨hworld, hstore, -, hhelpers⟩ := run_beside hu t rounds world
  refine ⟨hworld, hstore, hhelpers, ?_⟩
  rintro before r later - h h'
  obtain ⟨hworld, hstore, hrounds, -⟩ := run_beside hu t before world
  have hknown : WrittenIn (steps (u.under .skip) t.sink fresh world before) = fun d =>
      ((run (u.under .skip) t.sink before world).processor.emitted.get? d).isSome = true := by
    funext d
    exact propext (known_iff_writtenIn hskip t.sink before world d).symm
  rw [hknown, show h'.world = h.world from hworld]
  exact process_alongside hu t hstore hrounds (backed_run hu t before world) r

/-- A class gets a second field after its helper was written, and another one has no room for its
helper. The class is passed over with a warning by the one run and fails in the other. -/
theorem attempt_run_alongside_skip_run_late_field :
    let t : Treatment := ⟨fun _ => false, fun a => if a = "a.Bar$$Icicle" then some 9 else none,
      fun _ => false⟩
    let u : Setup := ⟨.default, .constant .int, HelperText.emitter⟩
    let foo : DeclaringType := ⟨"a", "Foo"⟩
    let bar : DeclaringType := ⟨"a", "Bar"⟩
    let int : FieldType := .named "int"
    let first : Round := ⟨[⟨foo, "x", int, .empty⟩, ⟨bar, "y", int, .empty⟩], false⟩
    let second : Round := ⟨[⟨foo, "z", int, .empty⟩], true⟩
    let h := run (u.under .skip) t.sink [first] []
    let h' := run (u.under .attempt) t.sink [first] []
    let s := h.processor.process (u.under .skip) t.sink second h.world
    let s' := h'.processor.process (u.under .attempt) t.sink second h'.world
    [first, second] = [first] ++ second :: [] ∧
      Alongside u.driver (WrittenIn (steps (u.under .skip) t.sink fresh [] [first])) s s' ∧
      s.report.emission.outcomes.map (·.2.artifact) = ["a.Foo$$Icicle", "a.Bar$$Icicle"] ∧
      s.report.emission.outcomes.map (·.2.isSkipped) = [true, false] ∧
      s'.report.emission.outcomes.map (·.2.isFailed) = [true, true] ∧
      (s.report.errors, s.report.warnings) = (1, 1) ∧
      (s'.report.errors, s'.report.warnings) = (2, 0) := by
  intro t u foo bar int first second h h' s s'
  obtain ⟨-, -, -, hround⟩ :=
    attempt_run_alongside_skip_run .default (.constant .int) t [] [first, second]
  refine ⟨rfl, hround [first] second [] rfl, ?_, ?_, ?_, ?_, ?_⟩ <;> decide +kernel

end Processor

end SavedState
