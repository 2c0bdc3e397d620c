import Mathlib.Data.List.Induction
import SavedState.Proofs.MemoryWriting

/-!
Written helpers are whole, and stay so.

A run only adds to the artifacts. A helper that is reported as written has been added with its
whole text, so that text is there until the end, whatever later rounds try. A type that is known
as written has its artifact among the others; so one whose artifact can still be created is
tried when it is visited, and the report says what came of it.
-/

namespace SavedState

/-- The first records of a set. -/
def FieldSet.take (s : FieldSet) (n : Nat) : FieldSet :=
  ⟨s.toList.take n, s.nodup.sublist (List.take_sublist n s.toList)⟩

lemma FieldSet.take_eq_of_prefix {s s' : FieldSet} (h : s.toList <+: s'.toList) :
    s'.take s.size = s := by
  obtain ⟨l, hl⟩ := s
  obtain ⟨more, hm⟩ := h
  simp only [FieldSet.take, FieldSet.size, FieldSet.mk.injEq]
  simp only [] at hm
  rw [← hm, List.take_left]

namespace Processor

/-! ### Artifacts over rounds -/

variable {u : Setup} (hu : u.emitter = HelperText.emitter) (t : Treatment)
include hu

lemma prefix_visit (pass : Pass Artifacts) (e : DeclaringType × FieldSet) :
    pass.world <+: (pass.visit u t.sink e).world := by
  rcases visit_cases u t.sink pass e with ⟨n, -, -, hv⟩ | ⟨-, hv⟩
  · rw [hv]
    unfold Pass.skip
    split <;> exact List.prefix_rfl
  · rw [hv]
    exact t.prefix_emit e.2 hu

lemma prefix_foldl (l : List (DeclaringType × FieldSet)) (pass : Pass Artifacts) :
    pass.world <+: (l.foldl (Pass.visit u t.sink) pass).world := by
  induction l generalizing pass with
  | nil => exact List.prefix_rfl
  | cons e l ih => exact (prefix_visit hu t pass e).trans (ih _)

lemma prefix_process (p : Processor) (r : Round) (world : Artifacts) :
    world <+: (p.process u t.sink r world).world := by
  rw [process_world]
  exact prefix_foldl hu t _ ⟨p.emitted, world, [], []⟩

lemma prefix_after (p : Processor) (rounds : List Round) (world : Artifacts) :
    world <+: (after u t.sink p world rounds).2 := by
  induction rounds generalizing p world with
  | nil => exact List.prefix_rfl
  | cons r rounds ih =>
    rw [after_cons]
    exact (prefix_process hu t p r world).trans (ih _ _)

omit hu

/-! ### Known types -/

/-- Each type that is known as written is stored, and its artifact is there. -/
def Backed (u : Setup) (s : Store) (emitted : Emitted) (w : Artifacts) : Prop :=
  ∀ e ∈ emitted, (∃ fields, (e.1, fields) ∈ s.entries) ∧
    (u.driver.helperName e.1).artifact ∈ w.names

variable {s s' : Store} {emitted : Emitted} {w w' : Artifacts} {d : DeclaringType}
  {fields : FieldSet}

lemma Backed.mono (h : Backed u s emitted w) (hs : s.Extends s') (hw : w <+: w') :
    Backed u s' emitted w' := by
  intro e he
  obtain ⟨⟨fields, hm⟩, ha⟩ := h e he
  obtain ⟨fields', hm', -⟩ := hs _ _ hm
  exact ⟨⟨fields', hm'⟩, (hw.map (·.1)).subset ha⟩

lemma Backed.mem_names (h : Backed u s emitted w) (hm : (d, fields) ∈ s.entries) {n : Nat}
    (hn : emitted.get? d = some n) : (u.driver.helperName d).artifact ∈ w.names := by
  obtain ⟨e, he, hs⟩ := Emitted.exists_mem_of_get? hn
  obtain ⟨⟨fields', hm'⟩, ha⟩ := h e he
  -- the known spelling is the stored one
  rwa [(Store.eq_of_mem_of_same hm' hm hs).1] at ha

lemma Backed.put (h : Backed u s emitted w) (hm : (d, fields) ∈ s.entries)
    (ha : (u.driver.helperName d).artifact ∈ w.names) (n : Nat) :
    Backed u s (emitted.put d n) w := by
  intro e he
  rcases Emitted.mem_put he with hd | ⟨e', he', hd⟩
  · rw [hd]
    exact ⟨⟨fields, hm⟩, ha⟩
  · rw [← hd]
    exact h e' he'

include hu

lemma Backed.visit {pass : Pass Artifacts} (h : Backed u s pass.emitted pass.world)
    {e : DeclaringType × FieldSet} (hm : e ∈ s.entries) :
    Backed u s (pass.visit u t.sink e).emitted (pass.visit u t.sink e).world := by
  have hgrow := h.mono (Store.Extends.refl s) (prefix_visit hu t pass e)
  rcases visit_cases u t.sink pass e with ⟨n, -, hn, hv⟩ | ⟨-, hv⟩
  · rw [hv]
    unfold Pass.skip
    split
    · exact h.put hm (h.mem_names hm hn) _
    · exact h
  · rw [hv] at hgrow ⊢
    unfold Pass.emit at hgrow ⊢
    dsimp only at hgrow ⊢
    split
    · rename_i hw
      obtain ⟨-, hworld⟩ := t.of_emit_written e.2 hu hw
      refine hgrow.put hm ?_ _
      rw [hworld]
      simp [Artifacts.names]
    · exact hgrow

lemma Backed.foldl {l : List (DeclaringType × FieldSet)} (hl : l ⊆ s.entries)
    (pass : Pass Artifacts) (h : Backed u s pass.emitted pass.world) :
    Backed u s (l.foldl (Pass.visit u t.sink) pass).emitted
      (l.foldl (Pass.visit u t.sink) pass).world := by
  induction l generalizing pass with
  | nil => exact h
  | cons e l ih =>
    rw [List.cons_subset] at hl
    exact ih hl.2 _ (h.visit hu t hl.1)

lemma Backed.partway {p : Processor} (r : Round) {world : Artifacts}
    (h : Backed u p.store p.emitted world) {front : List (DeclaringType × FieldSet)}
    (hf : front ⊆ (p.gathered u r).entries) :
    Backed u (p.gathered u r) (partway u t.sink p world front).emitted
      (partway u t.sink p world front).world :=
  Backed.foldl hu t hf ⟨p.emitted, world, [], []⟩
    (h.mono (extends_gathered u p r) List.prefix_rfl)

lemma Backed.process {p : Processor} (r : Round) {world : Artifacts}
    (h : Backed u p.store p.emitted world) :
    Backed u (p.gathered u r) (p.process u t.sink r world).processor.emitted
      (p.process u t.sink r world).world := by
  rw [process_emitted, process_world]
  refine h.partway hu t r ?_
  split
  · exact List.Subset.refl _
  · exact List.nil_subset _

lemma backed_after (rounds : List Round) (world : Artifacts) :
    Backed u (after u t.sink fresh world rounds).1.store
      (after u t.sink fresh world rounds).1.emitted (after u t.sink fresh world rounds).2 := by
  induction rounds using List.reverseRecOn with
  | nil =>
    intro e he
    exact absurd he List.not_mem_nil
  | append_singleton rounds r ih =>
    rw [after_concat]
    exact ih.process hu t r

/-- Each stored type has its artifact after a round that visits it, if none is refused by name. -/
lemma mem_names_of_emits (hf : ∀ name, t.failing name = false) {p : Processor} {r : Round}
    {world : Artifacts} (hb : Backed u p.store p.emitted world) (he : u.emits r = true)
    (hm : (d, fields) ∈ (p.gathered u r).entries) :
    (u.driver.helperName d).artifact ∈ (p.process u t.sink r world).world.names := by
  obtain ⟨front, rest, hs⟩ := List.append_of_mem hm
  have hsub : front ⊆ (p.gathered u r).entries := by
    rw [hs]
    exact List.subset_append_left _ _
  rw [process_world_of_split t.sink world he hs]
  have hlater := prefix_foldl hu t rest
    ((partway u t.sink p world front).visit u t.sink (d, fields))
  refine (hlater.map (·.1)).subset ?_
  change _ ∈ ((partway u t.sink p world front).visit u t.sink (d, fields)).world.names
  have hbefore := prefix_visit hu t (partway u t.sink p world front) (d, fields)
  by_cases ha : (u.driver.helperName d).artifact ∈ (partway u t.sink p world front).world.names
  · exact (hbefore.map (·.1)).subset ha
  · rcases visit_cases u t.sink (partway u t.sink p world front) (d, fields) with
      ⟨n, -, hn, -⟩ | ⟨-, hv⟩
    · exact absurd ((hb.partway hu t r hsub).mem_names hm hn) ha
    · rw [hv]
      unfold Pass.emit
      dsimp only
      rw [(t.emit_of_accepts fields hu ⟨hf _, ha⟩).1]
      simp [Artifacts.names]

/-! ### Reports -/

/-- A helper that is reported as written is there as a whole after the round. -/
lemma get?_of_written {p : Processor} {r : Round} {world : Artifacts} {a : String} {n : Nat}
    (hw : .written a n ∈ ((p.process u t.sink r world).view d).outcomes) :
    ∃ c all, c.same d = true ∧ a = (u.driver.helperName c).artifact ∧
      (c, all) ∈ (p.gathered u r).entries ∧ all.size = n ∧
      (p.process u t.sink r world).world.get? a =
        some (HelperText.emitter.whole c (u.driver.helperName c) all) := by
  rcases idle_or_split u p r d with hidle | ⟨he, c, all, front, rest, hs, hc⟩
  · rw [view_process_of_idle world hidle] at hw
    exact absurd hw List.not_mem_nil
  obtain ⟨hbefore, hview⟩ := view_process_of_split t.sink world he hs hc
  rw [hview] at hw
  rcases visit_cases u t.sink (partway u t.sink p world front) (c, all) with
    ⟨n, hne, hn, -⟩ | ⟨htried, hv⟩
  · rw [view_visit_of_known _ hne hc ((Emitted.get?_congr hc _).symm.trans hn), hbefore] at hw
    cases List.mem_singleton.1 hw
  have hknown : u.settings.reemit = .attempt ∨
      ((partway u t.sink p world front).view d).known = none :=
    htried.imp_right (Emitted.get?_congr hc _).symm.trans
  rw [view_visit_of_tried _ hc hknown, hbefore] at hw
  rcases emit_cases t.sink u.driver c all (partway u t.sink p world front).world with
    hr | ⟨e, hr⟩
  · rw [hr] at hw
    cases List.mem_singleton.1 hw
    obtain ⟨hnew, hworld⟩ := t.of_emit_written all hu (congrArg (·.1.isWritten) hr)
    have hvisit : ((partway u t.sink p world front).visit u t.sink (c, all)).world.get?
        (u.driver.helperName c).artifact =
        some (HelperText.emitter.whole c (u.driver.helperName c) all) := by
      rw [hv]
      unfold Pass.emit
      dsimp only
      rw [hworld]
      exact Artifacts.get?_concat hnew _
    refine ⟨c, all, hc, rfl, ?_, rfl, ?_⟩
    · rw [hs]
      exact List.mem_append_right _ List.mem_cons_self
    · rw [process_world_of_split t.sink world he hs]
      exact Artifacts.get?_of_prefix (prefix_foldl hu t rest _) hvisit
  · rw [hr] at hw
    cases List.mem_singleton.1 hw

/-- Where an artifact can still be created, its type is tried, and the report says what came of
it. -/
lemma view_of_accepts {p : Processor} {r : Round} {world : Artifacts}
    (hb : Backed u p.store p.emitted world) (he : u.emits r = true)
    {front rest : List (DeclaringType × FieldSet)}
    (hs : (p.gathered u r).entries = front ++ (d, fields) :: rest)
    (ha : t.Accepts (partway u t.sink p world front).world (u.driver.helperName d).artifact) :
    ∃ known, (p.process u t.sink r world).view d =
      let attempt := (u.driver.emit t.sink d fields (partway u t.sink p world front).world).1
      ⟨known, [attempt.1], attempt.2⟩ := by
  have hsub : front ⊆ (p.gathered u r).entries := by
    rw [hs]
    exact List.subset_append_left _ _
  have hm : (d, fields) ∈ (p.gathered u r).entries := by
    rw [hs]
    exact List.mem_append_right _ List.mem_cons_self
  obtain ⟨hbefore, hview⟩ := view_process_of_split t.sink world he hs (DeclaringType.same_refl d)
  have hfresh : (partway u t.sink p world front).emitted.get? d = none := by
    cases hn : (partway u t.sink p world front).emitted.get? d with
    | none => rfl
    | some n => exact absurd ((hb.partway hu t r hsub).mem_names hm hn) ha.2
  rw [hview, view_visit_of_tried _ (DeclaringType.same_refl d) (Or.inr hfresh), hbefore]
  exact ⟨_, rfl⟩

omit hu

/-- **Written means whole and final.** Whenever a helper is reported as written with `n` records,
its artifact holds from then on what is written without a limit of its type, as it is stored,
and of the first `n` records of the type. When an artifact can be created, then its helper is
reported as written if it stays within its limit and is flushed; else as failed, with one
diagnostic that gives the reason. -/
theorem written_whole_or_failed_once (settings : Settings) (resolver : Resolver) (t : Treatment)
    (world : Artifacts) (before : List Round) (r : Round) :
    let u : Setup := ⟨settings, resolver, HelperText.emitter⟩
    let h := run u t.sink before world
    let s := h.processor.process u t.sink r h.world
    (∀ d a n, .written a n ∈ (s.view d).outcomes →
      ∃ c : DeclaringType, c.same d = true ∧ a = (u.driver.helperName c).artifact ∧
        ∀ later, let h' := run u t.sink (before ++ r :: later) world
          ∃ fields, (c, fields) ∈ h'.processor.store.entries ∧ n ≤ fields.size ∧
            h'.world.get? a =
              some (HelperText.emitter.whole c (u.driver.helperName c) (fields.take n))) ∧
    ∀ d fields front rest, u.emits r = true →
      s.processor.store.entries = front ++ (d, fields) :: rest →
      let helper := u.driver.helperName d
      let found := (partway u t.sink h.processor h.world front).world
      (∃ channel next, (t.sink.create helper d).run.run found = (.ok channel, next)) →
      if t.Completes helper.artifact (HelperText.emitter.whole d helper fields) then
        (s.view d).outcomes = [.written helper.artifact fields.size] ∧ (s.view d).diagnostics = []
      else ∃ reason, (s.view d).outcomes = [.failed helper.artifact reason] ∧
        (s.view d).diagnostics = [⟨settings.artifactSeverity, .type d, reason⟩] := by
  intro u h s
  have hu : u.emitter = HelperText.emitter := rfl
  have hb : Backed u h.processor.store h.processor.emitted h.world := by
    simp only [h, run_eq]
    exact backed_after hu t before world
  constructor
  · intro d a n hw
    obtain ⟨c, all, hc, rfl, hm, rfl, hget⟩ := get?_of_written hu t hw
    refine ⟨c, hc, rfl, fun later => ?_⟩
    intro h'
    have hstore : s.processor.store.Extends h'.processor.store := by
      simp only [h', s, h, run_eq, after_append, after_cons]
      exact extends_after u t.sink _ _ later
    have hworld : s.world <+: h'.world := by
      simp only [h', s, h, run_eq, after_append, after_cons]
      exact prefix_after hu t _ later _
    obtain ⟨fields, hm', hp⟩ := hstore c all hm
    refine ⟨fields, hm', hp.length_le, ?_⟩
    rw [FieldSet.take_eq_of_prefix hp]
    exact Artifacts.get?_of_prefix hworld hget
  · intro d fields front rest he hs helper found hcreate
    have ha : t.Accepts found helper.artifact := by
      by_contra ha
      obtain ⟨e, herr⟩ := t.run_create_of_not_accepts d ha
      obtain ⟨channel, next, hok⟩ := hcreate
      rw [herr] at hok
      cases hok
    obtain ⟨known, hview⟩ := view_of_accepts hu t hb he hs ha
    obtain ⟨-, hout⟩ := t.emit_of_accepts fields hu ha
    have hview : s.view d = ⟨known, [(u.driver.emit t.sink d fields found).1.1],
      (u.driver.emit t.sink d fields found).1.2⟩ := hview
    rw [hview]
    by_cases hc : t.Completes helper.artifact (HelperText.emitter.whole d helper fields)
    · rw [if_pos hc] at hout
      rw [if_pos hc, hout]
      exact ⟨rfl, rfl⟩
    · rw [if_neg hc] at hout
      obtain ⟨reason, hout⟩ := hout
      rw [if_neg hc, hout]
      exact ⟨reason, rfl, rfl⟩

/-- Of two classes, one has room for its helper and gets a late record, the other has not. -/
theorem written_whole_or_failed_once_short_of_room :
    let t : Treatment := ⟨fun _ => false, fun a => if a = "a.Bar$$Icicle" then some 9 else none,
      fun _ => false⟩
    let u : Setup := ⟨.default, .constant .int, HelperText.emitter⟩
    let foo : DeclaringType := ⟨"a", "Foo"⟩
    let bar : DeclaringType := ⟨"a", "Bar"⟩
    let int : FieldType := .named "int"
    let first : Round := ⟨[⟨foo, "x", int, .empty⟩, ⟨bar, "y", int, .empty⟩], false⟩
    let second : Round := ⟨[⟨foo, "z", int, .empty⟩], true⟩
    let h := run u t.sink [] []
    let s := h.processor.process u t.sink first h.world
    .written "a.Foo$$Icicle" 1 ∈ (s.view foo).outcomes ∧
      (run u t.sink [first, second] []).world.get? "a.Foo$$Icicle" =
        some (HelperText.emitter.whole foo (u.driver.helperName foo)
          (.ofList [.of foo "x" int .int])) ∧
      ∃ reason, (s.view bar).outcomes = [.failed "a.Bar$$Icicle" reason] ∧
        (s.view bar).diagnostics = [⟨.error, .type bar, reason⟩] := by
  intro t u foo bar int first second h s
  let x : FieldSet := .ofList [.of foo "x" int .int]
  let y : FieldSet := .ofList [.of bar "y" int .int]
  have hw : .written "a.Foo$$Icicle" 1 ∈ (s.view foo).outcomes := by decide +kernel
  have hs : s.processor.store.entries = [(foo, x)] ++ (bar, y) :: [] := by decide +kernel
  have hlast : (run u t.sink [first, second] []).processor.store.entries =
      [(foo, .ofList [.of foo "x" int .int, .of foo "z" int .int]), (bar, y)] := by
    decide +kernel
  have he : u.emits first = true := by decide
  have ha : t.Accepts (partway u t.sink h.processor h.world [(foo, x)]).world
      (u.driver.helperName bar).artifact := by
    decide +kernel
  have hshort : ¬t.Completes (u.driver.helperName bar).artifact
      (HelperText.emitter.whole bar (u.driver.helperName bar) y) := by
    decide +kernel
  have hname : (u.driver.helperName bar).artifact = "a.Bar$$Icicle" := by decide +kernel
  have hall := written_whole_or_failed_once .default (.constant .int) t [] [] first
  -- from here on nothing is evaluated any more
  have hu : u = ⟨.default, .constant .int, HelperText.emitter⟩ := rfl
  clear_value u x y
  rw [← hu] at hall
  obtain ⟨hwhole, htold⟩ := hall
  refine ⟨hw, ?_, ?_⟩
  · obtain ⟨c, hc, -, hlater⟩ := hwhole foo _ _ hw
    obtain ⟨fields, hm, -, hget⟩ := hlater [second]
    have hm : (c, fields) ∈ (run u t.sink [first, second] []).processor.store.entries := hm
    rw [hlast] at hm
    rcases List.mem_cons.1 hm with he | hm
    · cases he
      exact hget
    · cases List.mem_singleton.1 hm
      exact absurd hc (by decide)
  · have hreport := htold bar y [(foo, x)] [] he hs ⟨_, _, t.run_create_of_accepts bar ha⟩
    rw [if_neg hshort, hname] at hreport
    exact hreport

end Processor

end SavedState
