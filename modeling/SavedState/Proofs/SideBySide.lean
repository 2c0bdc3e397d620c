import Mathlib.Data.List.Induction
import SavedState.Proofs.Pass

/-!
The same rounds with two sinks.

If two sinks write the same helpers and fail at the same ones, then all that is reported is the
same, apart from the wording of failures: nothing but a written helper bears on what is done
later.
-/

namespace SavedState

/-- An outcome without the reason of a failure. -/
def Outcome.gist : Outcome → Outcome
  | failed artifact _ => failed artifact ""
  | o => o

/-- Outcomes without the reasons of failures. -/
def gists (l : List (DeclaringType × Outcome)) : List (DeclaringType × Outcome) :=
  l.map fun e => (e.1, e.2.gist)

/-- A report without the reasons of failures. -/
def RoundReport.gist (r : RoundReport) : RoundReport :=
  { r with emission := ⟨gists r.emission.outcomes⟩ }

lemma Outcome.isWritten_of_gist {o o' : Outcome} (h : o.gist = o'.gist) :
    o.isWritten = o'.isWritten := by
  cases o <;> cases o' <;> simp_all [Outcome.gist, Outcome.isWritten]

namespace Processor

variable {σ τ : Type} (u : Setup) (sink : Sink σ) (sink' : Sink τ)

/-- Two sinks do the same for some types, as long as their worlds are related. -/
def Matches (types : List DeclaringType) (R : σ → τ → Prop) : Prop :=
  ∀ d ∈ types, ∀ fields w w', R w w' →
    (u.driver.emit sink d fields w).1.1.gist = (u.driver.emit sink' d fields w').1.1.gist ∧
      R (u.driver.emit sink d fields w).2 (u.driver.emit sink' d fields w').2

/-- Two passes have come equally far. -/
structure Pass.Alike (R : σ → τ → Prop) (pass : Pass σ) (pass' : Pass τ) : Prop where
  emitted : pass.emitted = pass'.emitted
  world : R pass.world pass'.world
  outcomes : gists pass.outcomes = gists pass'.outcomes
  severities : pass.diagnostics.map Diagnostic.severity = pass'.diagnostics.map Diagnostic.severity

variable {u sink sink'} {types : List DeclaringType} {R : σ → τ → Prop} {pass : Pass σ}
  {pass' : Pass τ}

/-- The diagnostics of an attempt are as many, and as grave, as its outcome makes them. -/
lemma severities_of_gist {v : Driver} {d : DeclaringType} {fields : FieldSet} {w : σ} {w' : τ}
    (h : (v.emit sink d fields w).1.1.gist = (v.emit sink' d fields w').1.1.gist) :
    (v.emit sink d fields w).1.2.map Diagnostic.severity =
      (v.emit sink' d fields w').1.2.map Diagnostic.severity := by
  rcases emit_cases sink v d fields w with he | ⟨e, he⟩ <;>
    rcases emit_cases sink' v d fields w' with he' | ⟨e', he'⟩ <;>
    rw [he, he'] at h ⊢ <;> first | rfl | cases h

lemma gists_append (l m : List (DeclaringType × Outcome)) : gists (l ++ m) = gists l ++ gists m :=
  List.map_append

lemma Pass.Alike.skip (h : pass.Alike R pass') (d : DeclaringType) (fields : FieldSet) (n : Nat) :
    (pass.skip u d fields n).Alike R (pass'.skip u d fields n) := by
  unfold Pass.skip
  split
  · refine ⟨?_, h.world, ?_, ?_⟩
    · simp only [h.emitted]
    · simp only [gists_append, h.outcomes]
    · simp only [List.map_append, h.severities]
  · refine ⟨h.emitted, h.world, ?_, h.severities⟩
    simp only [gists_append, h.outcomes]

lemma Pass.Alike.emit (hm : Matches u sink sink' types R) (h : pass.Alike R pass')
    {d : DeclaringType} (hd : d ∈ types) (fields : FieldSet) :
    (pass.emit u sink d fields).Alike R (pass'.emit u sink' d fields) := by
  obtain ⟨hgist, hworld⟩ := hm d hd fields _ _ h.world
  unfold Pass.emit
  refine ⟨?_, hworld, ?_, ?_⟩
  · simp only [h.emitted, Outcome.isWritten_of_gist hgist]
  · simp only [gists_append, h.outcomes]
    simp [gists, hgist]
  · simp only [List.map_append, h.severities, severities_of_gist hgist]

lemma Pass.Alike.visit (hm : Matches u sink sink' types R) (h : pass.Alike R pass')
    {e : DeclaringType × FieldSet} (he : e.1 ∈ types) :
    (pass.visit u sink e).Alike R (pass'.visit u sink' e) := by
  -- what is known of the type is known in both passes
  unfold Pass.visit
  rw [h.emitted]
  split
  · exact h.skip e.1 e.2 _
  · exact h.emit hm he e.2

lemma Pass.Alike.foldl (hm : Matches u sink sink' types R) (h : pass.Alike R pass')
    {l : List (DeclaringType × FieldSet)} (hl : ∀ e ∈ l, e.1 ∈ types) :
    (l.foldl (Pass.visit u sink) pass).Alike R (l.foldl (Pass.visit u sink') pass') := by
  induction l generalizing pass pass' with
  | nil => exact h
  | cons e l ih =>
    rw [List.forall_mem_cons] at hl
    exact ih (h.visit hm hl.1) hl.2

lemma count_eq (severity : Severity) (l : List Diagnostic) :
    Diagnostic.count severity l = (l.map Diagnostic.severity).count severity := by
  rw [Diagnostic.count, List.count, List.countP_map]
  rfl

/-- A round does and reports the same with both sinks. -/
lemma process_alike (hm : Matches u sink sink' types R) {w : σ} {w' : τ} (hw : R w w')
    (p : Processor) (r : Round) (hp : ∀ e ∈ (p.gathered u r).entries, e.1 ∈ types) :
    let s := p.process u sink r w
    let s' := p.process u sink' r w'
    s.processor = s'.processor ∧ R s.world s'.world ∧ s.report.gist = s'.report.gist := by
  have h : (emission u sink (p.gathered u r) p.emitted r.isFinal w).Alike R
      (emission u sink' (p.gathered u r) p.emitted r.isFinal w') := by
    rw [emission_eq, emission_eq]
    refine Pass.Alike.foldl hm ⟨rfl, hw, rfl, rfl⟩ ?_
    split
    · exact hp
    · exact List.forall_mem_nil _
  obtain ⟨hemitted, hworld, houtcomes, hseverities⟩ := h
  unfold gathered at hemitted hworld houtcomes hseverities
  unfold RoundReport.gist
  simp only [process_eq]
  refine ⟨?_, hworld, ?_⟩
  · rw [hemitted]
  · simp only [houtcomes, count_eq, List.map_append, hseverities]

/-- **A run does and reports the same with both sinks.** -/
lemma run_alike (hm : Matches u sink sink' types R) {w : σ} {w' : τ} (hw : R w w')
    (rounds : List Round)
    (hp : ∀ before r, before ++ [r] <+: rounds →
      ∀ e ∈ (run u sink (before ++ [r]) w).processor.store.entries, e.1 ∈ types) :
    let h := run u sink rounds w
    let h' := run u sink' rounds w'
    h.processor = h'.processor ∧ R h.world h'.world ∧
      h.reports.map RoundReport.gist = h'.reports.map RoundReport.gist := by
  induction rounds using List.reverseRecOn with
  | nil => exact ⟨rfl, hw, rfl⟩
  | append_singleton rounds r ih =>
    obtain ⟨hprocessor, hworld, hreports⟩ := ih fun before x hx =>
      hp before x (hx.trans (List.prefix_append _ _))
    have hstored := hp rounds r List.prefix_rfl
    rw [run_concat] at hstored
    rw [run_concat, run_concat]
    obtain ⟨hprocessor', hworld', hreport⟩ :=
      process_alike hm hworld (run u sink rounds w).processor r hstored
    unfold History.next
    rw [← hprocessor]
    refine ⟨hprocessor', hworld', ?_⟩
    rw [List.map_append, List.map_append, hreports, List.map_singleton, List.map_singleton, hreport]

/-- What holds of a world through every attempt holds of it through a run. -/
lemma run_preserves {I : σ → Prop}
    (hI : ∀ d ∈ types, ∀ fields w, I w → I (u.driver.emit sink d fields w).2) {w : σ} (hw : I w)
    (rounds : List Round)
    (hp : ∀ before r, before ++ [r] <+: rounds →
      ∀ e ∈ (run u sink (before ++ [r]) w).processor.store.entries, e.1 ∈ types) :
    I (run u sink rounds w).world := by
  -- the run is compared with itself
  have hm : Matches u sink sink types fun w w' => w = w' ∧ I w := by
    rintro d hd fields w _ ⟨rfl, hw⟩
    exact ⟨rfl, rfl, hI d hd fields w hw⟩
  exact (run_alike hm ⟨rfl, hw⟩ rounds hp).2.1.2

end Processor

end SavedState
