import Mathlib.Algebra.GroupWithZero.Nat
import Mathlib.Data.List.Induction
import Mathlib.Data.List.Perm.Basic
import SavedState.Proofs.Rounds

/-!
Rounds that wait for the final one.

Taking in elements goes by concatenation: what several rounds leave in the store, and what they
count, is what one round with all their elements does, whatever is done about the helpers. Where
that is put off to the final round, the helpers see no difference either. Only the order of the
diagnostics tells how the elements came, since each round checks all its elements first.
-/

namespace SavedState

/-! ### Taking in elements -/

instance : Add Tally :=
  ⟨fun a b => ⟨a.inserted + b.inserted, a.duplicates + b.duplicates, a.unresolved + b.unresolved⟩⟩

lemma Tally.add_def (a b : Tally) : a + b =
    ⟨a.inserted + b.inserted, a.duplicates + b.duplicates, a.unresolved + b.unresolved⟩ := rfl

namespace Collected

/-- What two batches of elements come to, of which the second went into the store of the first. -/
def followedBy (c c' : Collected) : Collected :=
  ⟨c'.store, c.tally + c'.tally, c.diagnostics ++ c'.diagnostics⟩

variable (resolver : Resolver) (c c' : Collected)

lemma followedBy_start : c.followedBy (.start c.store) = c := by
  simp [followedBy, start, Tally.add_def]

lemma file_followedBy (e : Element) :
    (c.followedBy c').file resolver e = c.followedBy (c'.file resolver e) := by
  unfold file
  cases e.build resolver with
  | error err => simp [followedBy, Tally.add_def, Nat.add_assoc]
  | ok r =>
    have hstore : (c.followedBy c').store = c'.store := rfl
    simp only [hstore]
    split <;> simp [followedBy, Tally.add_def, Nat.add_assoc]

lemma foldl_file_followedBy (es : List Element) :
    es.foldl (file resolver) (c.followedBy c') = c.followedBy (es.foldl (file resolver) c') := by
  induction es generalizing c' with
  | nil => rfl
  | cons e es ih => rw [List.foldl_cons, file_followedBy, ih, List.foldl_cons]

end Collected

/-- **Collecting goes by concatenation.** -/
lemma Store.collect_append (resolver : Resolver) (s : Store) (es fs : List Element) :
    s.collect resolver (es ++ fs) =
      (s.collect resolver es).followedBy ((s.collect resolver es).store.collect resolver fs) := by
  unfold Store.collect
  rw [List.foldl_append, ← Collected.foldl_file_followedBy, Collected.followedBy_start]

lemma eligible_append (es fs : List Element) : eligible (es ++ fs) = eligible es ++ eligible fs :=
  List.filter_append es fs

lemma rejections_append (severity : Severity) (es fs : List Element) :
    rejections severity (es ++ fs) = rejections severity es ++ rejections severity fs :=
  List.filterMap_append

lemma length_sub_length_eligible (severity : Severity) (es : List Element) :
    es.length - (eligible es).length = (rejections severity es).length := by
  have := length_eligible_add_length_rejections severity es
  omega

/-! ### Counts of several rounds -/

/-- The counts of several rounds together. -/
structure Totals where
  candidates : Nat
  rejected : Nat
  inserted : Nat
  duplicates : Nat
  unresolved : Nat
  errors : Nat
  warnings : Nat
deriving DecidableEq

def totals (reports : List RoundReport) : Totals :=
  { candidates := (reports.map (·.candidates)).sum
    rejected := (reports.map (·.rejected)).sum
    inserted := (reports.map (·.tally.inserted)).sum
    duplicates := (reports.map (·.tally.duplicates)).sum
    unresolved := (reports.map (·.tally.unresolved)).sum
    errors := (reports.map (·.errors)).sum
    warnings := (reports.map (·.warnings)).sum }

lemma Diagnostic.count_perm (severity : Severity) {ds es : List Diagnostic} (h : ds.Perm es) :
    count severity ds = count severity es :=
  h.countP_eq _

namespace Processor

variable {σ : Type} (u : Setup) (sink : Sink σ)

/-- What all elements of some rounds come to when they are taken in at once. -/
def collectedOf (rounds : List Round) : Collected :=
  Store.empty.collect u.resolver (eligible (rounds.flatMap Round.elements))

lemma collectedOf_concat (rounds : List Round) (r : Round) :
    collectedOf u (rounds ++ [r]) = (collectedOf u rounds).followedBy
      ((collectedOf u rounds).store.collect u.resolver (eligible r.elements)) := by
  unfold collectedOf
  rw [List.flatMap_append, List.flatMap_singleton, eligible_append, Store.collect_append]

/-- **The store does not tell how its elements came in.** -/
lemma store_run (rounds : List Round) (world : σ) :
    (run u sink rounds world).processor.store = (collectedOf u rounds).store := by
  induction rounds using List.reverseRecOn with
  | nil => rfl
  | append_singleton rounds r ih =>
    rw [run_concat, collectedOf_concat]
    change ((run u sink rounds world).processor.store.collect _ _).store = _
    rw [ih]
    rfl

/-- **Nor do the counts**, apart from those of the diagnostics. -/
lemma totals_run (rounds : List Round) (world : σ) :
    totals (run u sink rounds world).reports =
      { candidates := (rounds.flatMap Round.elements).length
        rejected := (rejections u.settings.validationSeverity
          (rounds.flatMap Round.elements)).length
        inserted := (collectedOf u rounds).tally.inserted
        duplicates := (collectedOf u rounds).tally.duplicates
        unresolved := (collectedOf u rounds).tally.unresolved
        errors := Diagnostic.count .error (run u sink rounds world).diagnostics
        warnings := Diagnostic.count .warning (run u sink rounds world).diagnostics } := by
  induction rounds using List.reverseRecOn with
  | nil => rfl
  | append_singleton rounds r ih =>
    have hstore := store_run u sink rounds world
    simp only [totals, Totals.mk.injEq] at ih
    obtain ⟨hcandidates, hrejected, hinserted, hduplicates, hunresolved, herrors, hwarnings⟩ := ih
    rw [run_concat, collectedOf_concat, ← hstore]
    simp only [totals, History.next, List.map_append, List.sum_append, hcandidates, hrejected,
      hinserted, hduplicates, hunresolved, herrors, hwarnings, List.flatMap_append,
      List.flatMap_singleton, rejections_append, Diagnostic.count_append, List.length_append]
    simp [process_eq, Collected.followedBy, Tally.add_def, Diagnostic.count_append,
      length_sub_length_eligible u.settings.validationSeverity]

/-! ### Waiting for the final round -/

/-- Nothing has been done about the helpers in the rounds of a history. -/
structure Deferred (world : σ) (rounds : List Round) (h : History σ) : Prop where
  emitted : h.processor.emitted = []
  world : h.world = world
  quiet : h.reports.map RoundReport.emission = rounds.map fun _ => ⟨[]⟩
  diagnostics : h.diagnostics.Perm
    (rejections u.settings.validationSeverity (rounds.flatMap Round.elements) ++
      (collectedOf u rounds).diagnostics)

/-- Of two batches, each with its rejections in front, the rejections may as well stand together. -/
lemma perm_batches {α : Type} {l a b : List α} (h : l.Perm (a ++ b)) (c d : List α) :
    (l ++ (c ++ d)).Perm ((a ++ c) ++ (b ++ d)) := by
  have hswap : (b ++ (c ++ d)).Perm (c ++ (b ++ d)) := by
    rw [← List.append_assoc, ← List.append_assoc]
    exact List.perm_append_comm.append_right d
  refine (h.append_right (c ++ d)).trans ?_
  rw [List.append_assoc, List.append_assoc]
  exact hswap.append_left a

variable {u}

lemma emission_of_waiting (hu : u.settings.reemit = .finalRound) (store : Store) (emitted : Emitted)
    (world : σ) : emission u sink store emitted false world = ⟨emitted, world, [], []⟩ := by
  unfold emission
  rw [if_pos ⟨hu, rfl⟩]

lemma deferred_run (hu : u.settings.reemit = .finalRound) (world : σ) (rounds : List Round)
    (hr : ∀ r ∈ rounds, r.isFinal = false) :
    Deferred u world rounds (run u sink rounds world) := by
  induction rounds using List.reverseRecOn with
  | nil => exact ⟨rfl, rfl, rfl, List.Perm.refl _⟩
  | append_singleton rounds r ih =>
    obtain ⟨hemitted, hworld, hquiet, hdiagnostics⟩ :=
      ih fun x hx => hr x (List.mem_append_left _ hx)
    have hwait : r.isFinal = false := hr r (List.mem_append_right _ (List.mem_singleton_self r))
    rw [run_concat]
    unfold History.next
    simp only [process_eq, hwait, emission_of_waiting sink hu]
    refine ⟨hemitted, hworld, ?_, ?_⟩
    · rw [List.map_append, List.map_append, hquiet]
      rfl
    · rw [collectedOf_concat, ← store_run u sink rounds world, List.append_nil,
        List.flatMap_append, List.flatMap_singleton, rejections_append]
      exact perm_batches hdiagnostics _ _

/-- The visits of a final round that all helpers have waited for. -/
def finalPass (u : Setup) (sink : Sink σ) (rounds : List Round) (world : σ) : Pass σ :=
  emission u sink (collectedOf u rounds).store [] true world

/-- What the final round does, it does to the store of all rounds. -/
lemma run_concat_of_deferred (hu : u.settings.reemit = .finalRound) {before : List Round}
    {last : Round} (hbefore : ∀ r ∈ before, r.isFinal = false) (hlast : last.isFinal = true)
    (world : σ) :
    let rounds := before ++ [last]
    let h := run u sink rounds world
    let pass := finalPass u sink rounds world
    h.processor.emitted = pass.emitted ∧ h.world = pass.world ∧
      h.reports.map RoundReport.emission = (before.map fun _ => ⟨[]⟩) ++ [⟨pass.outcomes⟩] ∧
      h.diagnostics.Perm
        (rejections u.settings.validationSeverity (rounds.flatMap Round.elements) ++
          (collectedOf u rounds).diagnostics ++ pass.diagnostics) := by
  intro rounds h pass
  obtain ⟨hemitted, hworld, hquiet, hdiagnostics⟩ := deferred_run sink hu world before hbefore
  have hpass : emission u sink ((run u sink before world).processor.store.collect u.resolver
      (eligible last.elements)).store (run u sink before world).processor.emitted last.isFinal
      (run u sink before world).world = pass := by
    rw [store_run, hemitted, hlast, hworld]
    simp only [pass, finalPass, rounds, collectedOf_concat]
    rfl
  have hh : h = (run u sink before world).next u sink last := run_concat u sink before last world
  rw [hh]
  refine ⟨congrArg Pass.emitted hpass, congrArg Pass.world hpass, ?_, ?_⟩
  · unfold History.next
    simp only [process_eq, hpass, List.map_append, hquiet, List.map_cons, List.map_nil]
  · unfold History.next
    simp only [process_eq, hpass, rounds]
    rw [store_run, collectedOf_concat, List.flatMap_append, List.flatMap_singleton,
      rejections_append, ← List.append_assoc]
    exact (perm_batches hdiagnostics _ _).append_right _

/-- **How the input is cut into rounds does not matter** where helpers wait for the final round.
One round with all elements leaves the same store and the same files behind, visits the same
types with the same outcomes, and gives the same diagnostics and counts. -/
theorem run_eq_run_of_one_round (hu : u.settings.reemit = .finalRound) (before : List Round)
    (last : Round) (hbefore : ∀ r ∈ before, r.isFinal = false) (hlast : last.isFinal = true)
    (world : σ) :
    let rounds := before ++ [last]
    let split := run u sink rounds world
    let whole := run u sink [⟨rounds.flatMap Round.elements, true⟩] world
    split.processor.store = whole.processor.store ∧
      split.processor.emitted = whole.processor.emitted ∧
      split.world = whole.world ∧
      split.reports.map RoundReport.emission =
        (before.map fun _ => ⟨[]⟩) ++ whole.reports.map RoundReport.emission ∧
      split.diagnostics.Perm whole.diagnostics ∧
      totals split.reports = totals whole.reports := by
  intro rounds split whole
  have hone : collectedOf u [⟨rounds.flatMap Round.elements, true⟩] = collectedOf u rounds := by
    unfold collectedOf
    rw [List.flatMap_singleton]
  obtain ⟨hemitted, hworld, hemission, hdiagnostics⟩ :=
    run_concat_of_deferred sink hu hbefore hlast world
  -- the one round is a final round that no other came before
  have hlast' : (⟨rounds.flatMap Round.elements, true⟩ : Round).isFinal = true := rfl
  have hfinal := run_concat_of_deferred sink hu (List.forall_mem_nil _) hlast' world
  have hpass : finalPass u sink [⟨rounds.flatMap Round.elements, true⟩] world =
      finalPass u sink rounds world := by
    unfold finalPass
    rw [hone]
  simp only [List.nil_append, hpass, hone, List.flatMap_singleton] at hfinal
  obtain ⟨hemitted', hworld', hemission', hdiagnostics'⟩ := hfinal
  have hperm : split.diagnostics.Perm whole.diagnostics := hdiagnostics.trans hdiagnostics'.symm
  refine ⟨?_, hemitted.trans hemitted'.symm, hworld.trans hworld'.symm, ?_, hperm, ?_⟩
  · rw [store_run, store_run, hone]
  · rw [hemission, hemission']
    rfl
  · rw [totals_run, totals_run, hone, List.flatMap_singleton, Diagnostic.count_perm _ hperm,
      Diagnostic.count_perm _ hperm]

/-- A field that cannot be resolved comes in the first round, and one that is static and one that
is known already come in the last. Only the order of the two complaints is another. -/
theorem run_eq_run_of_one_round_static :
    let u : Setup := ⟨⟨"_", .finalRound, .warning, .error⟩, .refusing ["Object"] (.constant .int),
      fun _ _ _ _ channel => channel.flush⟩
    let sink : Sink Nat := ⟨fun _ _ => do modify (· + 1); return ⟨fun _ => pure (), pure ()⟩⟩
    let foo : DeclaringType := ⟨"a", "Foo"⟩
    let first : Round := ⟨[⟨foo, "x", .named "int", .empty⟩, ⟨foo, "o", .named "Object", .empty⟩],
      false⟩
    let last : Round := ⟨[⟨foo, "s", .named "int", .ofList [.static]⟩,
      ⟨foo, "x", .named "int", .empty⟩, ⟨foo, "y", .named "int", .empty⟩], true⟩
    let split := run u sink [first, last] 0
    let whole := run u sink [⟨[first, last].flatMap Round.elements, true⟩] 0
    u.settings.reemit = .finalRound ∧ first.isFinal = false ∧ last.isFinal = true ∧
      split.processor.store = whole.processor.store ∧ split.world = whole.world ∧
      split.reports.map RoundReport.emission = [⟨[]⟩, ⟨[(foo, .written "a.Foo_" 2)]⟩] ∧
      split.diagnostics.Perm whole.diagnostics ∧ split.diagnostics ≠ whole.diagnostics ∧
      totals split.reports = totals whole.reports ∧
      totals whole.reports = ⟨5, 1, 2, 1, 1, 1, 1⟩ := by
  intro u sink foo first last split whole
  have hu : u.settings.reemit = .finalRound := rfl
  have hbefore : ∀ r ∈ [first], r.isFinal = false := by decide
  obtain ⟨hstore, -, hworld, hemission, hdiagnostics, htotals⟩ :=
    run_eq_run_of_one_round sink hu [first] last hbefore rfl 0
  refine ⟨hu, rfl, rfl, hstore, hworld, hemission.trans ?_, hdiagnostics, ?_, htotals, ?_⟩ <;>
    decide +kernel

end Processor

end SavedState
