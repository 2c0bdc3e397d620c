import SavedState.Proofs.Deferral
import SavedState.Proofs.WrittenOnce

/-!
The books of a round: what it reports, what it counts, and what it adds to the store.

The parts of a round count and report on their own. Elements are accounted for one by one, and
stored types visit by visit. A visit to a written type warns of what the store has of it beyond
the number that is kept beside it. From round to round this number is what the store had at the
last emission, whoever wrote the helper and whatever was done in between.
-/

namespace SavedState

/-! ### Elements -/

namespace Element

/-- The words for the modifiers of an element that keep it from being saved. -/
def barredBy (e : Element) : List String :=
  ([.private, .protected, .static, .final].filter e.modifiers.has).map Modifier.word

/-- What is reported of an element with such modifiers. -/
def barNotice (severity : Severity) (e : Element) : Diagnostic :=
  ⟨severity, .element e.enclosing e.name,
    "field must not be private, protected, static or final (found " ++
      ", ".intercalate e.barredBy ++ ")"⟩

/-- What is reported of an element whose type is refused. -/
def refusal? (resolver : Resolver) (e : Element) : Option Diagnostic :=
  match resolver e.type with
  | .ok _ => none
  | .error err => some ⟨.error, .element e.enclosing e.name, err.message⟩

lemma isEligible_iff {e : Element} : e.isEligible = true ↔ e.barredBy = [] := by
  rw [isEligible, List.isEmpty_iff, barredBy, List.map_eq_nil_iff]
  rfl

end Element

lemma eligible_eq (elements : List Element) :
    eligible elements = elements.filter fun e => e.barredBy = [] :=
  List.filter_congr fun e _ => by
    rw [Bool.eq_iff_iff, Element.isEligible_iff, decide_eq_true_iff]

lemma rejections_eq (severity : Severity) (elements : List Element) :
    rejections severity elements =
      (elements.filter fun e => e.barredBy ≠ []).map (Element.barNotice severity) := by
  unfold rejections
  induction elements with
  | nil => rfl
  | cons e elements ih =>
    rw [List.filterMap_cons, List.filter_cons, ih, Element.check]
    by_cases he : e.barredBy = []
    · rw [if_pos (Element.isEligible_iff.2 he), if_neg (by simp [he])]
    · rw [if_neg (mt Element.isEligible_iff.1 he), if_pos (by simp [he])]
      rfl

/-! ### The store -/

/-- How many records there are of a type. -/
def Store.countOf (s : Store) (d : DeclaringType) : Nat :=
  match s.get? d with
  | none => 0
  | some fields => fields.size

lemma Store.countOf_of_mem {s : Store} {t d : DeclaringType} {fields : FieldSet}
    (hm : (t, fields) ∈ s.entries) (ht : t.same d = true) : s.countOf d = fields.size := by
  unfold countOf get?
  cases hf : s.entries.find? (fun e => e.1.same d) with
  | none =>
    have hno := List.find?_eq_none.1 hf (t, fields) hm
    exact absurd ht hno
  | some e =>
    have hs : e.1.same d = true := by simpa using List.find?_some hf
    have hts : t.same e.1 = true := DeclaringType.same_trans ht (DeclaringType.same_symm hs)
    obtain ⟨-, rfl⟩ := eq_of_mem_of_same hm (List.mem_of_find?_eq_some hf) hts
    rfl

lemma Store.recordCount_insert {s : Store} {d : DeclaringType} {r : FieldRecord}
    (h : s.holds d r = false) : (s.insert d r).recordCount = s.recordCount + 1 := by
  obtain ⟨l, hl⟩ := s
  simp only [holds, get?, recordCount, insert] at h ⊢
  clear hl
  induction l with
  | nil => rfl
  | cons e es ih =>
    rw [List.find?_cons] at h
    unfold add
    cases he : e.1.same d with
    | true =>
      rw [he] at h
      have hr : r ∉ e.2.toList := fun hr =>
        Bool.false_ne_true (h.symm.trans (FieldSet.contains_iff.2 hr))
      have hsize : (e.2.insert r).size = e.2.size + 1 := by
        rw [FieldSet.size, FieldSet.toList_insert, if_neg hr, List.length_append]
        rfl
      rw [if_pos rfl, List.foldr_cons, List.foldr_cons, hsize]
      omega
    | false =>
      rw [he] at h
      rw [if_neg Bool.false_ne_true, List.foldr_cons, List.foldr_cons, ih h, Nat.add_assoc]

/-- What has been made of some elements, from a store on. -/
structure Collected.Balanced (resolver : Resolver) (store : Store) (es : List Element)
    (c : Collected) : Prop where
  elements : c.tally.inserted + c.tally.duplicates + c.tally.unresolved = es.length
  records : c.store.recordCount = store.recordCount + c.tally.inserted
  unresolved : c.tally.unresolved = c.diagnostics.length
  diagnostics : c.diagnostics = es.filterMap (Element.refusal? resolver)

section

variable {resolver : Resolver} {store : Store} {es : List Element} {c : Collected} {e : Element}

lemma Collected.Balanced.refused (h : c.Balanced resolver store es) {err : Unsupported}
    (he : resolver e.type = .error err) :
    (c.file resolver e).Balanced resolver store (es ++ [e]) := by
  have hfile : c.file resolver e = ⟨c.store,
      ⟨c.tally.inserted, c.tally.duplicates, c.tally.unresolved + 1⟩,
      c.diagnostics ++ [⟨.error, .ofElement e, err.message⟩]⟩ := by
    rw [file, Element.build, he]
    rfl
  have hone : e.refusal? resolver = some ⟨.error, .ofElement e, err.message⟩ := by
    rw [Element.refusal?, he]
    rfl
  obtain ⟨helements, hrecords, hunresolved, hdiagnostics⟩ := h
  rw [hfile]
  refine ⟨?_, hrecords, ?_, ?_⟩
  · simp only [List.length_append, List.length_singleton]
    omega
  · simp only [List.length_append, List.length_singleton]
    omega
  · rw [List.filterMap_append, ← hdiagnostics, List.filterMap_cons_some hone]
    rfl

lemma Collected.Balanced.resolved (h : c.Balanced resolver store es) {a : Accessor}
    (he : resolver e.type = .ok a) : (c.file resolver e).Balanced resolver store (es ++ [e]) := by
  have hfile : c.file resolver e =
      if c.store.holds e.enclosing (.of e.enclosing e.name e.type a) then
        ⟨c.store, ⟨c.tally.inserted, c.tally.duplicates + 1, c.tally.unresolved⟩, c.diagnostics⟩
      else
        ⟨c.store.insert e.enclosing (.of e.enclosing e.name e.type a),
          ⟨c.tally.inserted + 1, c.tally.duplicates, c.tally.unresolved⟩, c.diagnostics⟩ := by
    rw [file, Element.build, he]
    rfl
  have hnone : e.refusal? resolver = none := by rw [Element.refusal?, he]
  obtain ⟨helements, hrecords, hunresolved, hdiagnostics⟩ := h
  have hsame : c.diagnostics = (es ++ [e]).filterMap (Element.refusal? resolver) := by
    rw [List.filterMap_append, ← hdiagnostics, List.filterMap_cons_none hnone]
    exact (List.append_nil _).symm
  have hlength : (es ++ [e]).length = es.length + 1 := List.length_append
  rw [hfile]
  split
  · exact ⟨by simp only; omega, hrecords, hunresolved, hsame⟩
  · rename_i hnew
    have hcount := Store.recordCount_insert (Bool.eq_false_iff.2 hnew)
    exact ⟨by simp only; omega, by simp only; omega, hunresolved, hsame⟩

end

/-- **Each element is inserted, a duplicate, or reported.** -/
lemma Store.balanced_collect (resolver : Resolver) (s : Store) (es : List Element) :
    (s.collect resolver es).Balanced resolver s es := by
  unfold collect
  induction es using List.reverseRecOn with
  | nil => exact ⟨rfl, rfl, rfl, rfl⟩
  | append_singleton es e ih =>
    rw [List.foldl_append]
    cases he : resolver e.type with
    | error err => exact ih.refused he
    | ok a => exact ih.resolved he

namespace Processor

variable {σ : Type} (u : Setup)

/-! ### Visits -/

/-- What is reported of a stored type beside its outcome, if `known` of its records have been
accounted for. -/
def notices (known : Nat) (d : DeclaringType) (fields : FieldSet) : Outcome → List Diagnostic
  | .written .. => []
  | .skipped _ => if known < fields.size then [lateNotice d (fields.toList.drop known)] else []
  | .failed _ reason => [⟨u.settings.artifactSeverity, .type d, reason⟩]

variable {u} {sink : Sink σ}

variable (sink) in
/-- A visit has one outcome, and the notices that go with it. -/
lemma visit_notices (pass : Pass σ) (e : DeclaringType × FieldSet) {known : Nat}
    (hknown : u.settings.reemit ≠ .attempt → ∀ n, pass.emitted.get? e.1 = some n → n = known) :
    ∃ o, (pass.visit u sink e).outcomes = pass.outcomes ++ [(e.1, o)] ∧
      (pass.visit u sink e).diagnostics = pass.diagnostics ++ notices u known e.1 e.2 o := by
  rcases visit_cases u sink pass e with ⟨n, hu, hn, hv⟩ | ⟨-, hv⟩
  · cases hknown hu n hn
    refine ⟨.skipped (u.driver.helperName e.1).artifact, ?_⟩
    rw [hv]
    unfold Pass.skip notices
    split
    · exact ⟨rfl, rfl⟩
    · exact ⟨rfl, (List.append_nil _).symm⟩
  · refine ⟨(u.driver.emit sink e.1 e.2 pass.world).1.1, by rw [hv]; rfl, ?_⟩
    have hadded : (pass.emit u sink e.1 e.2).diagnostics =
        pass.diagnostics ++ (u.driver.emit sink e.1 e.2 pass.world).1.2 := rfl
    rw [hv, hadded]
    rcases emit_cases sink u.driver e.1 e.2 pass.world with he | ⟨err, he⟩
    · rw [he]
      rfl
    · rw [he]
      rfl

variable (sink) in
/-- **A pass has one outcome for each type**, in the order of the visits, with their notices. -/
lemma foldl_visit_notices {l : List (DeclaringType × FieldSet)} {known : DeclaringType → Nat}
    (hl : l.Pairwise fun a b => a.1.same b.1 = false) (pass : Pass σ)
    (hknown : u.settings.reemit ≠ .attempt →
      ∀ e ∈ l, ∀ n, pass.emitted.get? e.1 = some n → n = known e.1) :
    ∃ outcomes, outcomes.map (·.1) = l.map (·.1) ∧
      (l.foldl (Pass.visit u sink) pass).outcomes = pass.outcomes ++ outcomes ∧
      (l.foldl (Pass.visit u sink) pass).diagnostics = pass.diagnostics ++
        (l.zip outcomes).flatMap fun v => notices u (known v.1.1) v.1.1 v.1.2 v.2.2 := by
  induction l generalizing pass with
  | nil => exact ⟨[], rfl, (List.append_nil _).symm, (List.append_nil _).symm⟩
  | cons e l ih =>
    rw [List.pairwise_cons] at hl
    obtain ⟨o, ho, hd⟩ := visit_notices sink pass e fun hu =>
      hknown hu e List.mem_cons_self
    -- the visit leaves the number of every other type as it was
    have hnext : u.settings.reemit ≠ .attempt → ∀ x ∈ l, ∀ n,
        (pass.visit u sink e).emitted.get? x.1 = some n → n = known x.1 := by
      intro hu x hx n hn
      have hview : (pass.visit u sink e).view x.1 = pass.view x.1 :=
        view_visit_of_not_same pass (hl.1 x hx)
      have hsame : (pass.visit u sink e).emitted.get? x.1 = pass.emitted.get? x.1 :=
        congrArg View.known hview
      exact hknown hu x (List.mem_cons_of_mem _ hx) n (hsame.symm.trans hn)
    obtain ⟨outcomes, htypes, houtcomes, hdiagnostics⟩ := ih hl.2 _ hnext
    refine ⟨(e.1, o) :: outcomes, ?_, ?_, ?_⟩
    · rw [List.map_cons, List.map_cons, htypes]
    · rw [List.foldl_cons, houtcomes, ho, List.append_assoc, List.singleton_append]
    · rw [List.foldl_cons, hdiagnostics, hd, List.zip_cons_cons, List.flatMap_cons,
        List.append_assoc]

/-! ### Reachable processors -/

/-- The processors that rounds lead to, each round with a sink and a world of its own, and the
stores as they were at the last emission. -/
inductive Reachable (u : Setup) : Store → Processor → Prop where
  | fresh : Reachable u .empty .fresh
  | process {seen : Store} {p : Processor} (h : Reachable u seen p) {σ : Type} (sink : Sink σ)
      (r : Round) (world : σ) :
      Reachable u (if u.emits r then p.gathered u r else seen)
        (p.process u sink r world).processor

/-- The numbers beside the written types are those of the last emission. -/
structure Accounted (seen : Store) (p : Processor) : Prop where
  extends_seen : seen.Extends p.store
  known : ∀ d n, p.emitted.get? d = some n → ∃ t fields, (t, fields) ∈ seen.entries ∧
    t.same d = true ∧ n = fields.size

lemma Accounted.process {seen : Store} {p : Processor} (h : Accounted seen p)
    (hu : u.settings.reemit ≠ .attempt) (sink : Sink σ) (r : Round) (world : σ) :
    Accounted (if u.emits r then p.gathered u r else seen)
      (p.process u sink r world).processor := by
  refine ⟨?_, fun d n hn => ?_⟩
  · split
    · exact Store.Extends.refl _
    · exact h.extends_seen.trans (extends_gathered u p r)
  · have hview : ((p.process u sink r world).view d).known = some n := hn
    cases hp : p.emitted.get? d with
    | none =>
      rcases view_process_of_pending sink world r hp with
        hv | ⟨t, fields, front, rest, he, hs, ht, hv⟩
      · rw [hv] at hview
        cases hview
      · rw [hv] at hview
        dsimp only at hview
        split at hview
        · cases hview
          rw [if_pos he]
          exact ⟨t, fields, hs ▸ List.mem_append_cons_self, ht, rfl⟩
        · cases hview
    | some m =>
      obtain ⟨t, fields, hm, ht, rfl⟩ := h.known d m hp
      obtain ⟨stored, hstored, hpre⟩ := h.extends_seen t fields hm
      obtain ⟨gathered, hgathered, -, hv⟩ :=
        view_process_of_settled sink world r hu ht hp hstored hpre.length_le
      rw [hv] at hview
      split at hview
      · rename_i he
        cases hview
        rw [if_pos he]
        exact ⟨t, gathered, hgathered, ht, rfl⟩
      · rename_i he
        cases hview
        rw [if_neg he]
        exact ⟨t, fields, hm, ht, rfl⟩

lemma Reachable.accounted {seen : Store} {p : Processor} (h : Reachable u seen p)
    (hu : u.settings.reemit ≠ .attempt) : Accounted seen p := by
  induction h with
  | fresh => exact ⟨Store.Extends.refl _, fun d n hn => nomatch hn⟩
  | process _ sink r world ih => exact ih.process hu sink r world

/-! ### Rounds -/

/-- The books of a round that a processor `p` has made, when `seen` was the store at the last
emission before it. -/
structure Step.Balanced (u : Setup) (seen : Store) (p : Processor) (r : Round) (s : Step σ) :
    Prop where
  diagnostics : s.diagnostics =
    (r.elements.filter fun e => e.barredBy ≠ []).map
        (Element.barNotice u.settings.validationSeverity) ++
      (r.elements.filter fun e => e.barredBy = []).filterMap (Element.refusal? u.resolver) ++
      (s.processor.store.entries.zip s.report.emission.outcomes).flatMap fun v =>
        notices u (seen.countOf v.1.1) v.1.1 v.1.2 v.2.2
  candidates : s.report.candidates = r.elements.length
  rejected : s.report.rejected = (r.elements.filter fun e => e.barredBy ≠ []).length
  unresolved : s.report.tally.unresolved =
    ((r.elements.filter fun e => e.barredBy = []).filterMap (Element.refusal? u.resolver)).length
  elements : s.report.candidates = s.report.rejected + s.report.tally.inserted +
    s.report.tally.duplicates + s.report.tally.unresolved
  records : s.processor.store.recordCount = p.store.recordCount + s.report.tally.inserted
  visited : s.report.emission.outcomes.map (·.1) =
    if u.emits r then s.processor.store.entries.map (·.1) else []
  outcomes : s.report.emission.written + s.report.emission.skipped + s.report.emission.failed =
    if u.emits r then s.processor.store.size else 0
  errors : s.report.errors = s.diagnostics.countP fun x => x.severity = .error
  warnings : s.report.warnings = s.diagnostics.countP fun x => x.severity = .warning

lemma written_add_skipped_add_failed (report : EmissionReport) :
    report.written + report.skipped + report.failed = report.outcomes.length := by
  obtain ⟨l⟩ := report
  unfold EmissionReport.written EmissionReport.skipped EmissionReport.failed EmissionReport.count
  induction l with
  | nil => rfl
  | cons e l ih =>
    obtain ⟨d, o⟩ := e
    rw [List.countP_cons, List.countP_cons, List.countP_cons, List.length_cons, ← ih]
    cases o <;> simp [Outcome.isWritten, Outcome.isSkipped, Outcome.isFailed] <;> omega

/-- What the pass of a round has for the stored types, whichever of them it visits. -/
lemma emission_notices {seen : Store} {p : Processor} (hp : Reachable u seen p) (sink : Sink σ)
    (r : Round) (world : σ) :
    let pass := emission u sink (p.gathered u r) p.emitted r.isFinal world
    pass.outcomes.map (·.1) = (if u.emits r then (p.gathered u r).entries.map (·.1) else []) ∧
      pass.diagnostics = ((p.gathered u r).entries.zip pass.outcomes).flatMap fun v =>
        notices u (seen.countOf v.1.1) v.1.1 v.1.2 v.2.2 := by
  intro pass
  have hpass : pass = partway u sink p world (if u.emits r then (p.gathered u r).entries else []) :=
    emission_eq u sink p r world
  rw [hpass]
  cases he : u.emits r with
  | false => exact ⟨rfl, by rw [if_neg Bool.false_ne_true]; simp [partway]⟩
  | true =>
    -- under `attempt` the numbers may be stale, but then no type is passed over
    have hknown : u.settings.reemit ≠ .attempt → ∀ e ∈ (p.gathered u r).entries, ∀ n,
        p.emitted.get? e.1 = some n → n = seen.countOf e.1 := by
      intro hu e _ n hn
      obtain ⟨t, fields, hm, ht, rfl⟩ := (hp.accounted hu).known e.1 n hn
      exact (Store.countOf_of_mem hm ht).symm
    obtain ⟨outcomes, htypes, houtcomes, hdiagnostics⟩ :=
      foldl_visit_notices sink (p.gathered u r).distinct ⟨p.emitted, world, [], []⟩ hknown
    rw [if_pos rfl, if_pos rfl, partway, hdiagnostics, houtcomes, List.nil_append,
      List.nil_append]
    exact ⟨htypes, rfl⟩

/-- **The books of every round balance**, wherever the rounds before it have led, and whatever its
sink does. -/
theorem process_balanced {seen : Store} {p : Processor} (hp : Reachable u seen p) (sink : Sink σ)
    (r : Round) (world : σ) : (p.process u sink r world).Balanced u seen p r := by
  obtain ⟨helements, hrecords, hunresolved, hrefusals⟩ :=
    Store.balanced_collect u.resolver p.store (eligible r.elements)
  obtain ⟨hvisited, hnotices⟩ := emission_notices hp sink r world
  have hlengths := length_eligible_add_length_rejections u.settings.validationSeverity r.elements
  have hrejected : (p.process u sink r world).report.rejected =
      (rejections u.settings.validationSeverity r.elements).length :=
    length_sub_length_eligible u.settings.validationSeverity r.elements
  have hsize : (p.process u sink r world).report.emission.outcomes.length =
      if u.emits r then (p.process u sink r world).processor.store.size else 0 := by
    have hlength := congrArg List.length hvisited
    rw [List.length_map] at hlength
    refine hlength.trans ?_
    split
    · exact List.length_map _
    · rfl
  have hdiagnostics : (p.process u sink r world).diagnostics =
      rejections u.settings.validationSeverity r.elements ++
        (p.store.collect u.resolver (eligible r.elements)).diagnostics ++
        (emission u sink (p.gathered u r) p.emitted r.isFinal world).diagnostics := by
    rw [process_eq]
    rfl
  refine ⟨?_, rfl, ?_, ?_, ?_, hrecords, hvisited, ?_, ?_, ?_⟩
  · rw [hdiagnostics, rejections_eq, hrefusals, eligible_eq, hnotices]
    rfl
  · rw [hrejected, rejections_eq, List.length_map]
  · rw [← eligible_eq, ← hrefusals]
    exact hunresolved
  · rw [hrejected]
    change r.elements.length = _ + (Store.collect u.resolver p.store _).tally.inserted +
      (Store.collect u.resolver p.store _).tally.duplicates +
      (Store.collect u.resolver p.store _).tally.unresolved
    omega
  · rw [written_add_skipped_add_failed, hsize]
  · exact (process_counts u sink p r world).1
  · exact (process_counts u sink p r world).2

/-- A second round with something of everything: a field that is barred, one that is refused, one
that is there already, one that comes too late, and one of a class whose helper fails. -/
theorem process_balanced_of_everything :
    let u : Setup := ⟨⟨"_", .skip, .warning, .note⟩, .refusing ["Object"] (.constant .int),
      fun _ _ _ _ channel => channel.flush⟩
    let willing : Sink Unit := ⟨fun _ _ => return ⟨fun _ => pure (), pure ()⟩⟩
    let unwilling : Sink Nat := ⟨fun _ _ => throw ⟨.other, "full"⟩⟩
    let foo : DeclaringType := ⟨"a", "Foo"⟩
    let first : Round := ⟨[⟨foo, "x", .named "int", .empty⟩], false⟩
    let second : Round := ⟨[⟨foo, "s", .named "int", .ofList [.static, .private]⟩,
      ⟨foo, "o", .named "Object", .empty⟩, ⟨foo, "x", .named "int", .empty⟩,
      ⟨foo, "y", .named "int", .empty⟩, ⟨⟨"a", "Bar"⟩, "z", .named "int", .empty⟩], false⟩
    let seen := fresh.gathered u first
    let p := (fresh.process u willing first ()).processor
    let s := p.process u unwilling second 0
    Reachable u seen p ∧ s.Balanced u seen p second ∧ s.report.candidates = 5 ∧
      s.report.tally = ⟨2, 1, 1⟩ ∧ s.diagnostics.map Diagnostic.render =
        ["warning: a.Foo.s: field must not be private, protected, static or final " ++
            "(found private, static)",
          "error: a.Foo.o: " ++ Unsupported.message ⟨"Object"⟩,
          "warning: a.Foo: helper already generated; fields added in a later round are not " ++
            "persisted: y",
          "note: a.Bar: impossible to create a.Bar_: full"] := by
  intro u willing unwilling foo first second seen p s
  have hp : Reachable u seen p := Reachable.fresh.process willing first ()
  exact ⟨hp, process_balanced hp unwilling second 0, rfl, by decide +kernel, by decide +kernel⟩

end Processor

end SavedState
