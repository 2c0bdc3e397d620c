import SavedState.Proofs.Books
import SavedState.Proofs.MemoryVisits
import SavedState.Proofs.ProperTypes
import SavedState.Proofs.Rearrangement

/-!
Rounds whose elements come in another order.

As long as the elements of each type keep their order among themselves, each type gets the same
records, the same outcome and the same diagnostics, and each artifact the same bytes. Filing looks
at one type at a time, and a visit at one type and its artifact. Types that are not the same have
artifacts of their own, if no segment of their packages is empty; so a pass is a sum of visits
that have nothing in common. What is left of the order are the places of the new types.
-/

namespace SavedState

lemma Artifacts.get?_eq_find? (w : Artifacts) (name : String) :
    w.get? name = (w.find? fun a => a.1 = name).map (·.2) := by
  unfold get?
  induction w with
  | nil => rfl
  | cons a w ih =>
    rw [List.lookup_cons, List.find?_cons]
    by_cases ha : a.1 = name
    · simp [ha]
    · have hne : (name == a.1) = false := by simpa using Ne.symm ha
      simp [ha, hne, ih]

namespace Store

variable {s s' : Store}

lemma get?_eq_of_rearranged (h : Rearranged Prod.fst s.entries s'.entries) (d : DeclaringType) :
    s.get? d = s'.get? d := by
  unfold get?
  rw [h.find?_eq d]

lemma recordCount_eq_of_perm (h : s.entries.Perm s'.entries) : s.recordCount = s'.recordCount :=
  h.foldr_eq' (fun a _ b _ n => Nat.add_left_comm b.2.size a.2.size n) 0

end Store

namespace Processor

/-! ### Filing -/

lemma refusal?_declaring {resolver : Resolver} {e : Element} {x : Diagnostic}
    (h : e.refusal? resolver = some x) : x.subject.declaring = e.enclosing := by
  unfold Element.refusal? at h
  split at h
  · cases h
  · cases h
    rfl

lemma check_declaring {severity : Severity} {e : Element} {x : Diagnostic}
    (h : e.check severity = some x) : x.subject.declaring = e.enclosing := by
  unfold Element.check at h
  split at h
  · cases h
  · cases h
    rfl

section

variable {es es' : List Element} (h : Rearranged Element.enclosing es es')

include h

lemma rejections_rearranged (severity : Severity) :
    Rearranged (·.subject.declaring) (rejections severity es) (rejections severity es') :=
  h.filterMap fun _ _ => check_declaring

lemma eligible_rearranged : Rearranged Element.enclosing (eligible es) (eligible es') := h.filter _

lemma survivors_rearranged (resolver : Resolver) :
    Rearranged Prod.fst (es.filterMap (Element.survivor? resolver))
      (es'.filterMap (Element.survivor? resolver)) :=
  h.filterMap fun _ _ hx => (Element.of_survivor? hx).1

end

/-- Rearranged elements are counted alike. -/
lemma tally_collect_eq {resolver : Resolver} {store : Store} {es es' : List Element}
    (hes : es.Perm es')
    (hentries : (store.collect resolver es).store.entries.Perm
      (store.collect resolver es').store.entries) :
    (store.collect resolver es).tally = (store.collect resolver es').tally := by
  obtain ⟨helements, hrecords, hunresolved, hdiagnostics⟩ := store.balanced_collect resolver es
  obtain ⟨helements', hrecords', hunresolved', hdiagnostics'⟩ := store.balanced_collect resolver es'
  have hcount := Store.recordCount_eq_of_perm hentries
  have hlength := hes.length_eq
  have hrefused : (store.collect resolver es).diagnostics.length =
      (store.collect resolver es').diagnostics.length := by
    rw [hdiagnostics, hdiagnostics', (hes.filterMap _).length_eq]
  cases htally : (store.collect resolver es).tally
  cases htally' : (store.collect resolver es').tally
  rw [htally] at helements hrecords hunresolved
  rw [htally'] at helements' hrecords' hunresolved'
  dsimp only at *
  rw [Tally.mk.injEq]
  omega

/-! ### Visits -/

variable {u : Setup} {t : Treatment}

lemma Apart.symm {a b : DeclaringType × FieldSet} (h : Apart u a b) : Apart u b a :=
  ⟨by rw [DeclaringType.same_comm]; exact h.1, h.2.symm⟩

/-- What is the same of two passes, type by type. -/
structure Pass.SameByType (pass pass' : Pass Artifacts) : Prop where
  known : ∀ d, pass.emitted.get? d = pass'.emitted.get? d
  outcomes : Rearranged Prod.fst pass.outcomes pass'.outcomes
  diagnostics : Rearranged (·.subject.declaring) pass.diagnostics pass'.diagnostics
  artifact : ∀ name, pass.world.get? name = pass'.world.get? name

section

variable (hu : u.emitter = HelperText.emitter) {l l' : List (DeclaringType × FieldSet)}
  (hl : l.Pairwise (Apart u)) (hperm : l.Perm l')

include hu hl hperm

/-- **Visits may come in any order**, if the types have artifacts of their own. -/
lemma foldl_visit_sameByType (pass : Pass Artifacts) :
    (l.foldl (Pass.visit u t.sink) pass).SameByType (l'.foldl (Pass.visit u t.sink) pass) := by
  obtain ⟨hworld, houtcomes, hdiagnostics, hknown⟩ := foldl_visit (t := t) hu hl pass
  obtain ⟨hworld', houtcomes', hdiagnostics', hknown'⟩ :=
    foldl_visit (t := t) hu (hperm.pairwise hl Apart.symm) pass
  have hvisited : Rearranged Prod.fst l l' := .of_perm (hl.imp And.left) hperm
  have hrefl : ∀ {α : Type} (type : α → DeclaringType) (k : List α), Rearranged type k k :=
    fun _ _ _ => rfl
  refine ⟨fun d => ?_, ?_, ?_, fun name => ?_⟩
  · rw [hknown, hknown', hvisited.find?_eq d]
  · rw [houtcomes, houtcomes']
    exact (hrefl _ _).append (hvisited.map fun _ => rfl)
  · rw [hdiagnostics, hdiagnostics']
    refine (hrefl _ _).append (hvisited.flatMap fun e x hx => ?_)
    rw [subject_of_mem_addition u t hx]
    rfl
  · have hmatch : (l.filter fun e => (u.driver.helperName e.1).artifact = name) =
        l'.filter fun e => (u.driver.helperName e.1).artifact = name :=
      filter_eq_of_perm (hl.imp fun hab ha hb =>
        hab.2 ((of_decide_eq_true ha).trans (of_decide_eq_true hb).symm)) hperm
    have hadded : ∀ e, ∀ a ∈ (addition u t pass e).artifacts,
        decide (a.1 = name) = decide ((u.driver.helperName e.1).artifact = name) :=
      fun e a ha => by rw [mem_artifacts_addition u t ha]
    rw [hworld, hworld', Artifacts.get?_eq_find?, Artifacts.get?_eq_find?, ← List.head?_filter,
      ← List.head?_filter, List.filter_append, List.filter_append,
      filter_flatMap_eq fun e _ => hadded e, filter_flatMap_eq fun e _ => hadded e, hmatch]

/-- Where only new types change their places, only their outcomes and artifacts do. -/
lemma foldl_visit_alikeButNew (isNew : DeclaringType → Prop)
    (h : AlikeButNew (fun e => isNew e.1) l l') (pass : Pass Artifacts) :
    let last := l.foldl (Pass.visit u t.sink) pass
    let last' := l'.foldl (Pass.visit u t.sink) pass
    AlikeButNew (fun o => isNew o.1) last.outcomes last'.outcomes ∧
      AlikeButNew (fun a => ∃ d, isNew d ∧ a.1 = (u.driver.helperName d).artifact) last.world
        last'.world := by
  obtain ⟨hworld, houtcomes, -, -⟩ := foldl_visit (t := t) hu hl pass
  obtain ⟨hworld', houtcomes', -, -⟩ :=
    foldl_visit (t := t) hu (hperm.pairwise hl Apart.symm) pass
  intro last last'
  rw [houtcomes, houtcomes', hworld, hworld']
  constructor
  · refine AlikeButNew.append_left (h.map _ fun e _ he => ?_) _
    exact he
  · refine AlikeButNew.append_left (h.flatMap _ fun e _ he a ha => ?_) _
    exact ⟨e.1, he, mem_artifacts_addition u t ha⟩

end

/-! ### Rounds -/

/-- What is the same of two rounds, type by type, that a processor `p` makes of elements in
another order. -/
structure Step.SameByType (u : Setup) (p : Processor) (s s' : Step Artifacts) : Prop where
  records : ∀ d, s.processor.store.get? d = s'.processor.store.get? d
  known : ∀ d, s.processor.emitted.get? d = s'.processor.emitted.get? d
  outcome : ∀ d, s.report.emission.outcome? d = s'.report.emission.outcome? d
  diagnostics : ∀ d, (s.diagnostics.filter fun x => x.subject.declaring.same d) =
    s'.diagnostics.filter fun x => x.subject.declaring.same d
  artifact : ∀ name, s.world.get? name = s'.world.get? name
  report : s'.report = { s.report with emission := s'.report.emission }
  counts : ∀ q, s.report.emission.count q = s'.report.emission.count q
  entries : AlikeButNew (fun e => p.store.contains e.1 = false) s.processor.store.entries
    s'.processor.store.entries
  outcomes : AlikeButNew (fun o => p.store.contains o.1 = false) s.report.emission.outcomes
    s'.report.emission.outcomes
  world : AlikeButNew (fun a => ∃ d, p.store.contains d = false ∧
    a.1 = (u.driver.helperName d).artifact) s.world s'.world

section

variable {p : Processor} {l : List (DeclaringType × FieldRecord)}
  (hp : p.store.contents = grouping l)

include hp

lemma contains_eq (d : DeclaringType) : p.store.contains d = (l.map (·.1)).any (·.same d) := by
  rw [← any_firstSpellings, ← types_of_contents hp, List.any_map]
  rfl

lemma contents_gathered (r : Round) : (p.gathered u r).contents =
    grouping (l ++ r.elements.filterMap (Element.survivor? u.resolver)) :=
  contents_collect u.resolver hp r.elements

/-- Types without gaps in their packages are stored apart from each other. -/
lemma apart_gathered (hl : ∀ x ∈ l, x.1.IsGapless) {r : Round}
    (hr : ∀ e ∈ r.elements, e.enclosing.IsGapless) :
    (p.gathered u r).entries.Pairwise (Apart u) := by
  have hgapless : ∀ e ∈ (p.gathered u r).entries, e.1.IsGapless := by
    intro e he
    have hm : e.1 ∈ (p.gathered u r).entries.map (·.1) := List.mem_map_of_mem he
    rw [types_of_contents (contents_gathered hp r)] at hm
    obtain ⟨x, hx, hxe⟩ := List.mem_map.1 (mem_firstSpellings hm)
    rw [← hxe]
    rcases List.mem_append.1 hx with hx | hx
    · exact hl x hx
    · obtain ⟨y, hy, hyx⟩ := List.mem_filterMap.1 hx
      rw [(Element.of_survivor? hyx).1]
      exact hr y hy
  refine (p.gathered u r).distinct.imp_of_mem fun {a b} ha hb hab => ⟨hab, fun hart => ?_⟩
  have hqualified : a.1.qualified = b.1.qualified := (String.append_left_inj _).1 hart
  rw [(hgapless a ha).qualified_eq_iff (hgapless b hb), hab] at hqualified
  cases hqualified

variable {es es' : List Element} (h : Rearranged Element.enclosing es es') (isFinal : Bool)

include h

lemma gathered_alikeButNew :
    AlikeButNew (fun e => p.store.contains e.1 = false) (p.gathered u ⟨es, isFinal⟩).entries
      (p.gathered u ⟨es', isFinal⟩).entries := by
  simp only [contains_eq hp]
  exact Store.entries_alikeButNew (contents_gathered hp ⟨es, isFinal⟩)
    (contents_gathered hp ⟨es', isFinal⟩) (survivors_rearranged h u.resolver)

/-- **A round does the same for each type**, in whatever order the types come. -/
lemma process_sameByType (hu : u.emitter = HelperText.emitter) (t : Treatment)
    (hl : ∀ x ∈ l, x.1.IsGapless) (hes : ∀ e ∈ es, e.enclosing.IsGapless) (w : Artifacts) :
    (p.process u t.sink ⟨es, isFinal⟩ w).SameByType u p
      (p.process u t.sink ⟨es', isFinal⟩ w) := by
  have hentries := gathered_alikeButNew (u := u) hp h isFinal
  have hapart := apart_gathered (u := u) hp hl (r := ⟨es, isFinal⟩) hes
  let visited := if u.emits ⟨es, isFinal⟩ then (p.gathered u ⟨es, isFinal⟩).entries else []
  let visited' := if u.emits ⟨es', isFinal⟩ then (p.gathered u ⟨es', isFinal⟩).entries else []
  have hvisited : visited.Pairwise (Apart u) ∧
      AlikeButNew (fun e => p.store.contains e.1 = false) visited visited' := by
    have hemits : u.emits ⟨es', isFinal⟩ = u.emits ⟨es, isFinal⟩ := rfl
    unfold visited visited'
    rw [hemits]
    split
    · exact ⟨hapart, hentries⟩
    · exact ⟨.nil, .refl []⟩
  have hpass : (partway u t.sink p w visited).SameByType (partway u t.sink p w visited') :=
    foldl_visit_sameByType hu hvisited.1 hvisited.2.perm _
  obtain ⟨hnewOutcomes, hnewArtifacts⟩ := foldl_visit_alikeButNew (t := t) hu hvisited.1
    hvisited.2.perm (p.store.contains · = false) hvisited.2 ⟨p.emitted, w, [], []⟩
  have hdiagnostics : Rearranged (·.subject.declaring)
      (p.process u t.sink ⟨es, isFinal⟩ w).diagnostics
      (p.process u t.sink ⟨es', isFinal⟩ w).diagnostics := by
    rw [process_diagnostics, process_diagnostics]
    refine ((rejections_rearranged h _).append ?_).append hpass.diagnostics
    rw [(Store.balanced_collect ..).diagnostics, (Store.balanced_collect ..).diagnostics]
    exact (eligible_rearranged h).filterMap fun _ _ => refusal?_declaring
  refine ⟨fun d => ?_, fun d => ?_, fun d => ?_, hdiagnostics, fun name => ?_, ?_, fun q => ?_,
    hentries, ?_, ?_⟩
  · exact Store.get?_eq_of_rearranged (.of_perm (Store.distinct _) hentries.perm) d
  · rw [process_emitted, process_emitted]
    exact hpass.known d
  · unfold EmissionReport.outcome?
    rw [process_outcomes, process_outcomes, hpass.outcomes.find?_eq d]
  · rw [process_world, process_world]
    exact hpass.artifact name
  · have hrejected : es'.length - (eligible es').length = es.length - (eligible es).length := by
      rw [h.perm.length_eq, (eligible_rearranged h).perm.length_eq]
    have htally := tally_collect_eq (eligible_rearranged h).perm hentries.perm
    have hcount := fun severity => Diagnostic.count_perm severity hdiagnostics.perm
    simp only [process_eq] at hcount ⊢
    rw [hcount, hcount, htally, hrejected, h.perm.length_eq]
  · unfold EmissionReport.count
    rw [process_outcomes, process_outcomes]
    exact hpass.outcomes.perm.countP_eq _
  · rw [process_outcomes, process_outcomes]
    exact hnewOutcomes
  · rw [process_world, process_world]
    exact hnewArtifacts

end

/-- **Declaring types do not influence each other.** After any rounds, let the elements of one
more round come in another order, in which those of each type keep theirs. Every type gets the
same records in the same order, the same outcome and the same diagnostics, every artifact holds
the same bytes, and all that is counted is the same. The types that are new to the store may
stand in another order, in the store, in the report and among the artifacts; nothing else does. -/
theorem round_sameByType_of_rearranged (settings : Settings) (resolver : Resolver) (t : Treatment)
    (before : List Round) (world : Artifacts) (es es' : List Element) (isFinal : Bool)
    (hbefore : ∀ r ∈ before, ∀ e ∈ r.elements, e.enclosing.IsGapless)
    (hes : ∀ e ∈ es, e.enclosing.IsGapless) (h : Rearranged Element.enclosing es es') :
    let u : Setup := ⟨settings, resolver, HelperText.emitter⟩
    let start := run u t.sink before world
    es.Perm es' ∧
      (start.processor.process u t.sink ⟨es, isFinal⟩ start.world).SameByType u start.processor
        (start.processor.process u t.sink ⟨es', isFinal⟩ start.world) := by
  intro u start
  have hl : ∀ x ∈ survivors resolver before, x.1.IsGapless := by
    rintro ⟨d, r⟩ hx
    obtain ⟨e, he, hex⟩ := List.mem_filterMap.1 hx
    obtain ⟨round, hround, he⟩ := List.mem_flatMap.1 he
    rw [(Element.of_survivor? hex).1]
    exact hbefore round hround e he
  exact ⟨h.perm, process_sameByType (contents_run u t.sink before world) h isFinal rfl t hl hes
    start.world⟩

/-- Two new classes beside one that is known: one of their fields is static, and the artifact of
the one class fails. The classes change their places, and nothing else. -/
theorem round_sameByType_of_rearranged_two_classes :
    let foo : DeclaringType := ⟨"a", "Foo"⟩
    let bar : DeclaringType := ⟨"", "Bar"⟩
    let int : FieldType := .named "int"
    let before : List Round := [⟨[⟨⟨"a", "Old"⟩, "o", int, .empty⟩], false⟩]
    let x : Element := ⟨foo, "x", int, .empty⟩
    let z : Element := ⟨foo, "z", int, .ofList [.static]⟩
    let y : Element := ⟨bar, "y", int, .empty⟩
    let t : Treatment := ⟨fun a => a = "Bar$$Icicle", fun _ => none, fun _ => false⟩
    let u : Setup := ⟨.default, .constant .int, HelperText.emitter⟩
    let start := run u t.sink before []
    let s := start.processor.process u t.sink ⟨[x, y, z], true⟩ start.world
    let s' := start.processor.process u t.sink ⟨[y, x, z], true⟩ start.world
    (∀ r ∈ before, ∀ e ∈ r.elements, e.enclosing.IsGapless) ∧
      (∀ e ∈ [x, y, z], e.enclosing.IsGapless) ∧ Rearranged Element.enclosing [x, y, z] [y, x, z] ∧
      s.SameByType u start.processor s' ∧
      s.report.emission.outcomes.map (·.1.name) = ["Old", "Foo", "Bar"] ∧
      s'.report.emission.outcomes.map (·.1.name) = ["Old", "Bar", "Foo"] ∧
      (s.report.rejected, s.report.emission.written, s.report.emission.failed) = (1, 1, 1) := by
  intro foo bar int before x z y t u start s s'
  have hbefore : ∀ r ∈ before, ∀ e ∈ r.elements, e.enclosing.IsGapless := by decide
  have hes : ∀ e ∈ [x, y, z], e.enclosing.IsGapless := by decide
  have h : Rearranged Element.enclosing [x, y, z] [y, x, z] := by
    intro d
    have hne : foo.same bar = false := by decide
    have hx : x.enclosing = foo := rfl
    have hy : y.enclosing = bar := rfl
    cases hfoo : foo.same d with
    | false => simp [List.filter_cons, hx, hfoo]
    | true =>
      rw [DeclaringType.same_comm, DeclaringType.same_congr_right hfoo] at hne
      simp [List.filter_cons, hx, hy, hfoo, hne]
  refine ⟨hbefore, hes, h, ?_, ?_, ?_, ?_⟩
  · exact (round_sameByType_of_rearranged .default (.constant .int) t before [] _ _ true hbefore hes
      h).2
  all_goals decide +kernel

end Processor

end SavedState
