import Mathlib.Data.List.Basic
import Mathlib.Data.List.Induction
import Mathlib.Tactic.Common
import SavedState.Proofs.Rounds

/-!
What the store of a processor holds after a run: the records of all elements that survive, put
together by declaring type.

The grouping is said here without a store. Types stand in the order of their first survivors and
are spelled as there; the records of a type are those of its survivors, each taken once. Filing
elements one by one keeps to that grouping, and writing helpers does not touch it.
-/

namespace SavedState

/-- What an element adds to a store, if no modifier bars it and its type can be resolved. -/
def Element.survivor? (resolver : Resolver) (e : Element) : Option (DeclaringType × FieldRecord) :=
  if e.modifiers.has .private || e.modifiers.has .protected || e.modifiers.has .static ||
      e.modifiers.has .final then none
  else
    match resolver e.type with
    | .ok accessor => some (e.enclosing, ⟨e.name, e.enclosing.fieldKey e.name, e.type, accessor⟩)
    | .error _ => none

lemma Element.of_survivor? {resolver : Resolver} {x : Element} {d : DeclaringType} {r : FieldRecord}
    (hx : x.survivor? resolver = some (d, r)) :
    d = x.enclosing ∧ ∃ a, resolver x.type = .ok a ∧ r = .of x.enclosing x.name x.type a := by
  unfold survivor? at hx
  split at hx
  · cases hx
  · split at hx
    · rename_i a ha
      cases hx
      exact ⟨rfl, a, ha, rfl⟩
    · cases hx

/-- The survivors of all rounds, in the order in which they are met. -/
def survivors (resolver : Resolver) (rounds : List Round) : List (DeclaringType × FieldRecord) :=
  (rounds.flatMap Round.elements).filterMap (Element.survivor? resolver)

/-- The declaring types of a list, each one once and as it is spelled first. -/
def firstSpellings (ds : List DeclaringType) : List DeclaringType :=
  ds.eraseDupsBy DeclaringType.same

/-- The records that stand beside a declaring type, each one once. -/
def recordsOf (l : List (DeclaringType × FieldRecord)) (d : DeclaringType) : List FieldRecord :=
  ((l.filter fun e => e.1.same d).map (·.2)).eraseDups

/-- Records put together by declaring type. -/
def grouping (l : List (DeclaringType × FieldRecord)) : List (DeclaringType × List FieldRecord) :=
  (firstSpellings (l.map (·.1))).map fun d => (d, recordsOf l d)

def Store.contents (s : Store) : List (DeclaringType × List FieldRecord) :=
  s.entries.map fun e => (e.1, e.2.toList)

/-! ### Grouping one more record -/

lemma firstSpellings_concat (ds : List DeclaringType) (d : DeclaringType) :
    firstSpellings (ds ++ [d]) =
      if ds.any (·.same d) then firstSpellings ds else firstSpellings ds ++ [d] := by
  -- the recursion of the library goes through filtered tails, so the induction is on the length
  induction hn : ds.length using Nat.strongRecOn generalizing ds with
  | ind n ih =>
    cases ds with
    | nil => rfl
    | cons x ds =>
      unfold firstSpellings at ih ⊢
      rw [List.cons_append, List.eraseDupsBy_cons, List.eraseDupsBy_cons, List.filter_append]
      by_cases hx : d.same x = true
      · have hxd : x.same d = true := DeclaringType.same_symm hx
        simp [hx, hxd]
      · have hxd : x.same d = false := by rw [DeclaringType.same_comm]; simpa using hx
        have hlen : (ds.filter fun b => b.same x = false).length < n := by
          have := List.length_filter_le (fun b => decide (b.same x = false)) ds
          simp only [List.length_cons] at hn
          omega
        have hany : (ds.filter fun b => b.same x = false).any (·.same d) = ds.any (·.same d) := by
          rw [Bool.eq_iff_iff]
          simp only [List.any_filter, List.any_eq_true, Bool.and_eq_true, decide_eq_true_eq]
          refine ⟨fun ⟨b, hb, h⟩ => ⟨b, hb, h.2⟩, fun ⟨b, hb, h⟩ => ⟨b, hb, ?_, h⟩⟩
          rw [DeclaringType.same_congr_left h, Bool.eq_false_iff]
          exact hx
        have hd : [d].filter (fun b => decide (b.same x = false)) = [d] := by simp [hx]
        rw [hd, ih _ hlen _ rfl, hany, List.any_cons, hxd, Bool.false_or]
        split <;> rfl

lemma mem_firstSpellings {ds : List DeclaringType} {d : DeclaringType} (h : d ∈ firstSpellings ds) :
    d ∈ ds := by
  induction ds using List.reverseRecOn with
  | nil => exact h
  | append_singleton ds x ih =>
    rw [firstSpellings_concat] at h
    split at h
    · exact List.mem_append_left _ (ih h)
    · rcases List.mem_append.1 h with h | h
      · exact List.mem_append_left _ (ih h)
      · exact List.mem_append_right _ h

lemma recordsOf_concat_of_same {l : List (DeclaringType × FieldRecord)} {d t : DeclaringType}
    (r : FieldRecord) (h : d.same t = true) :
    recordsOf (l ++ [(d, r)]) t =
      if r ∈ recordsOf l t then recordsOf l t else recordsOf l t ++ [r] := by
  unfold recordsOf
  rw [List.filter_append, List.map_append, List.eraseDups_append]
  by_cases hr : r ∈ (l.filter fun e => e.1.same t).map (·.2)
  · rw [if_pos (List.mem_eraseDups.2 hr)]
    simp [h, List.removeAll, hr]
  · rw [if_neg (mt List.mem_eraseDups.1 hr)]
    simp [h, List.removeAll, hr, List.eraseDups_cons]

lemma recordsOf_concat_of_not_same {l : List (DeclaringType × FieldRecord)} {d t : DeclaringType}
    (r : FieldRecord) (h : d.same t = false) : recordsOf (l ++ [(d, r)]) t = recordsOf l t := by
  simp [recordsOf, List.filter_append, h]

lemma any_firstSpellings (ds : List DeclaringType) (d : DeclaringType) :
    (firstSpellings ds).any (·.same d) = ds.any (·.same d) := by
  induction ds using List.reverseRecOn with
  | nil => rfl
  | append_singleton ds x ih =>
    rw [firstSpellings_concat]
    split
    · rename_i hx
      obtain ⟨y, hy, hyx⟩ := List.any_eq_true.1 hx
      rw [ih, List.any_append, Bool.eq_iff_iff]
      simp only [Bool.or_eq_true, List.any_cons, List.any_nil, Bool.or_false]
      refine ⟨Or.inl, fun h => h.elim id fun hxd => ?_⟩
      exact List.any_eq_true.2 ⟨y, hy, DeclaringType.same_trans hyx hxd⟩
    · rw [List.any_append, List.any_append, ih]

/-- A record of a type that is there already joins the records of that type. -/
lemma grouping_concat_of_any {l : List (DeclaringType × FieldRecord)} {d : DeclaringType}
    (r : FieldRecord) (h : (l.map (·.1)).any (·.same d) = true) :
    grouping (l ++ [(d, r)]) = (grouping l).map fun e =>
      if e.1.same d then (e.1, if r ∈ e.2 then e.2 else e.2 ++ [r]) else e := by
  unfold grouping
  rw [List.map_append, List.map_cons, List.map_nil, firstSpellings_concat, if_pos h, List.map_map]
  refine List.map_congr_left fun t _ => ?_
  cases ht : t.same d with
  | true =>
    rw [DeclaringType.same_comm] at ht
    simp [DeclaringType.same_comm t d, ht, recordsOf_concat_of_same r ht]
  | false =>
    rw [DeclaringType.same_comm] at ht
    simp [DeclaringType.same_comm t d, ht, recordsOf_concat_of_not_same r ht]

/-- A record of a new type comes last. -/
lemma grouping_concat_of_not_any {l : List (DeclaringType × FieldRecord)} {d : DeclaringType}
    (r : FieldRecord) (h : (l.map (·.1)).any (·.same d) = false) :
    grouping (l ++ [(d, r)]) = grouping l ++ [(d, [r])] := by
  have hne : ∀ t ∈ l.map (·.1), t.same d = false := by simpa using h
  have hd : recordsOf l d = [] := by
    have : (l.filter fun e => e.1.same d) = [] := by
      rw [List.filter_eq_nil_iff]
      intro e he
      simp [hne e.1 (List.mem_map_of_mem he)]
    simp [recordsOf, this]
  unfold grouping
  rw [List.map_append, List.map_cons, List.map_nil, firstSpellings_concat, h,
    if_neg Bool.false_ne_true, List.map_append, List.map_cons, List.map_nil]
  rw [recordsOf_concat_of_same r (DeclaringType.same_refl d), hd]
  congr 1
  refine List.map_congr_left fun t ht => ?_
  rw [recordsOf_concat_of_not_same r]
  rw [DeclaringType.same_comm]
  exact hne t (mem_firstSpellings ht)

/-! ### Filing in a store -/

namespace Store

lemma add_of_any {d : DeclaringType} (r : FieldRecord) {l : List (DeclaringType × FieldSet)}
    (hl : l.Pairwise fun a b => a.1.same b.1 = false) (h : (l.map (·.1)).any (·.same d) = true) :
    add d r l = l.map fun e => if e.1.same d then (e.1, e.2.insert r) else e := by
  induction l with
  | nil => simp at h
  | cons e es ih =>
    rw [List.pairwise_cons] at hl
    simp only [add, List.map_cons]
    cases he : e.1.same d with
    | true =>
      have hrest : ∀ x ∈ es, x.1.same d = false := by
        intro x hx
        rw [DeclaringType.same_comm, ← DeclaringType.same_congr_left he]
        exact hl.1 x hx
      rw [if_pos rfl, if_pos rfl, List.map_congr_left (g := id) fun x hx => by simp [hrest x hx],
        List.map_id]
    | false =>
      rw [List.map_cons, List.any_cons, he, Bool.false_or] at h
      simp [ih hl.2 h]

lemma add_of_not_any {d : DeclaringType} (r : FieldRecord) {l : List (DeclaringType × FieldSet)}
    (h : (l.map (·.1)).any (·.same d) = false) :
    add d r l = l ++ [(d, FieldSet.empty.insert r)] := by
  induction l with
  | nil => rfl
  | cons e es ih =>
    rw [List.map_cons, List.any_cons, Bool.or_eq_false_iff] at h
    simp [add, h.1, ih h.2]

end Store

lemma types_of_contents {s : Store} {l : List (DeclaringType × FieldRecord)}
    (hs : s.contents = grouping l) : s.entries.map (·.1) = firstSpellings (l.map (·.1)) := by
  have htypes := congrArg (List.map (·.1)) hs
  simpa [Store.contents, grouping, Function.comp_def] using htypes

/-- **Filing keeps to the grouping.** -/
lemma contents_insert {s : Store} {l : List (DeclaringType × FieldRecord)}
    (hs : s.contents = grouping l) (d : DeclaringType) (r : FieldRecord) :
    (s.insert d r).contents = grouping (l ++ [(d, r)]) := by
  have hany : (s.entries.map (·.1)).any (·.same d) = (l.map (·.1)).any (·.same d) := by
    rw [types_of_contents hs, any_firstSpellings]
  cases h : (l.map (·.1)).any (·.same d) with
  | true =>
    rw [grouping_concat_of_any r h, ← hs]
    simp only [Store.contents, Store.insert, Store.add_of_any r s.distinct (hany.trans h),
      List.map_map]
    refine List.map_congr_left fun e _ => ?_
    cases he : e.1.same d <;> simp [he, FieldSet.toList_insert]
  | false =>
    rw [grouping_concat_of_not_any r h, ← hs]
    simp [Store.contents, Store.insert, Store.add_of_not_any r (hany.trans h),
      FieldSet.toList_insert, FieldSet.empty]

/-- A record that is held already changes nothing. -/
lemma contents_insert_of_holds {s : Store} {d : DeclaringType} {r : FieldRecord}
    (h : s.holds d r = true) : (s.insert d r).contents = s.contents := by
  obtain ⟨l, hl⟩ := s
  simp only [Store.holds, Store.get?, Store.contents, Store.insert] at h ⊢
  induction l with
  | nil => simp at h
  | cons e es ih =>
    rw [List.find?_cons] at h
    cases he : e.1.same d with
    | true =>
      simp only [he, Option.map_some, FieldSet.contains_iff] at h
      simp [Store.add, he, FieldSet.toList_insert, h]
    | false =>
      simp only [he] at h
      simpa [Store.add, he] using ih (List.pairwise_cons.1 hl).2 h

/-! ### Rounds -/

variable (resolver : Resolver)

/-- An eligible element survives as the record that is built from it. -/
lemma survivor?_of_isEligible {e : Element} (h : e.isEligible = true) :
    e.survivor? resolver = (e.build resolver).toOption.map fun r => (e.enclosing, r) := by
  have hno : (e.modifiers.has .private || e.modifiers.has .protected || e.modifiers.has .static ||
      e.modifiers.has .final) = false := by
    have := List.filter_eq_nil_iff.1 (List.isEmpty_iff.1 h)
    simpa [disallowedModifiers, and_assoc] using this
  rw [Element.survivor?, hno, if_neg Bool.false_ne_true, Element.build]
  cases resolver e.type <;> rfl

lemma survivor?_of_not_isEligible {e : Element} (h : e.isEligible = false) :
    e.survivor? resolver = none := by
  have hyes : (e.modifiers.has .private || e.modifiers.has .protected || e.modifiers.has .static ||
      e.modifiers.has .final) = true := by
    by_contra hno
    have hno := Bool.eq_false_iff.2 hno
    simp only [Bool.or_eq_false_iff] at hno
    rw [Element.isEligible, Element.disallowed] at h
    simp [disallowedModifiers, hno] at h
  rw [Element.survivor?, if_pos hyes]

lemma contents_file {c : Collected} {l : List (DeclaringType × FieldRecord)} {e : Element}
    (hc : c.store.contents = grouping l) (he : e.isEligible = true) :
    (c.file resolver e).store.contents = grouping (l ++ (e.survivor? resolver).toList) := by
  rw [survivor?_of_isEligible resolver he, Collected.file]
  cases e.build resolver with
  | error err => simpa [Except.toOption] using hc
  | ok r =>
    have hr := contents_insert hc e.enclosing r
    simp only [Except.toOption, Option.map_some, Option.toList_some]
    split
    · rename_i hold
      rw [← hr, contents_insert_of_holds hold]
    · exact hr

lemma contents_collect {s : Store} {l : List (DeclaringType × FieldRecord)}
    (hs : s.contents = grouping l) (es : List Element) :
    (s.collect resolver (eligible es)).store.contents =
      grouping (l ++ es.filterMap (Element.survivor? resolver)) := by
  induction es using List.reverseRecOn with
  | nil => simpa [Store.collect, eligible, Collected.start] using hs
  | append_singleton es e ih =>
    simp only [Store.collect, eligible, List.filter_append, List.foldl_append,
      List.filterMap_append] at ih ⊢
    cases he : e.isEligible with
    | true =>
      have := contents_file resolver ih he
      cases hsurv : e.survivor? resolver <;> simpa [he, hsurv] using this
    | false => simpa [he, survivor?_of_not_isEligible resolver he] using ih

/-! ### Whole runs -/

lemma firstSpellings_prefix (ds ts : List DeclaringType) :
    firstSpellings ds <+: firstSpellings (ds ++ ts) := by
  induction ts using List.reverseRecOn with
  | nil => simp
  | append_singleton ts t ih =>
    rw [← List.append_assoc, firstSpellings_concat]
    split
    · exact ih
    · exact ih.trans (List.prefix_append _ _)

lemma recordsOf_prefix (l m : List (DeclaringType × FieldRecord)) (d : DeclaringType) :
    recordsOf l d <+: recordsOf (l ++ m) d := by
  induction m using List.reverseRecOn with
  | nil => simp
  | append_singleton m x ih =>
    rw [← List.append_assoc]
    cases hx : x.1.same d with
    | false => rwa [recordsOf_concat_of_not_same x.2 hx]
    | true =>
      rw [recordsOf_concat_of_same x.2 hx]
      split
      · exact ih
      · exact ih.trans (List.prefix_append _ _)

lemma mem_recordsOf {l : List (DeclaringType × FieldRecord)} {d : DeclaringType} {r : FieldRecord} :
    r ∈ recordsOf l d ↔ ∃ t, (t, r) ∈ l ∧ t.same d = true := by
  simp only [recordsOf, List.mem_eraseDups, List.mem_map, List.mem_filter]
  constructor
  · rintro ⟨⟨t, x⟩, ⟨hm, ht⟩, rfl⟩
    exact ⟨t, hm, ht⟩
  · rintro ⟨t, hm, ht⟩
    exact ⟨(t, r), ⟨hm, ht⟩, rfl⟩

lemma mem_grouping {l : List (DeclaringType × FieldRecord)} {d : DeclaringType}
    {rs : List FieldRecord} (h : (d, rs) ∈ grouping l) :
    d ∈ firstSpellings (l.map (·.1)) ∧ rs = recordsOf l d := by
  obtain ⟨t, ht, he⟩ := List.mem_map.1 h
  cases he
  exact ⟨ht, rfl⟩

lemma recordsOf_ne_nil {l : List (DeclaringType × FieldRecord)} {d : DeclaringType}
    (h : d ∈ firstSpellings (l.map (·.1))) : recordsOf l d ≠ [] := by
  obtain ⟨⟨t, r⟩, hm, rfl⟩ := List.mem_map.1 (mem_firstSpellings h)
  exact List.ne_nil_of_mem (mem_recordsOf.2 ⟨t, hm, DeclaringType.same_refl t⟩)

section

variable {σ : Type} (u : Setup) (sink : Sink σ)

lemma contents_run (rounds : List Round) (world : σ) :
    (Processor.run u sink rounds world).processor.store.contents =
      grouping (survivors u.resolver rounds) := by
  induction rounds using List.reverseRecOn with
  | nil => rfl
  | append_singleton rounds r ih =>
    have hs : survivors u.resolver (rounds ++ [r]) =
        survivors u.resolver rounds ++ r.elements.filterMap (Element.survivor? u.resolver) := by
      simp [survivors]
    rw [Processor.run_concat, hs]
    exact contents_collect u.resolver ih r.elements

lemma entry_injective :
    Function.Injective fun e : DeclaringType × FieldSet => (e.1, e.2.toList) := by
  rintro ⟨d, ⟨rs, _⟩⟩ ⟨d', ⟨rs', _⟩⟩ he
  simpa using he

lemma contents_inj {s t : Store} (h : s.contents = t.contents) : s = t := by
  obtain ⟨l, hl⟩ := s
  obtain ⟨m, hm⟩ := t
  have : l = m := List.map_injective_iff.2 entry_injective h
  subst this
  rfl

/-- **The store is the grouping of the survivors.** So what is barred or cannot be resolved leaves
no trace, no type stands without a record, later rounds only add at the ends, and what is done
about the helpers, and how it is reported, has no bearing on the store. -/
theorem store_run_eq_grouping (rounds : List Round) (world : σ) :
    let store := (Processor.run u sink rounds world).processor.store
    store.contents = grouping (survivors u.resolver rounds) ∧
      (∀ e ∈ store.contents, ∀ r ∈ e.2, ∃ x ∈ rounds.flatMap Round.elements, ∃ d : DeclaringType,
        x.survivor? u.resolver = some (d, r) ∧ d.same e.1 = true) ∧
      (∀ e ∈ store.contents, e.2 ≠ []) ∧
      (∀ more : List Round,
        let later := (Processor.run u sink (rounds ++ more) world).processor.store
        store.contents.map (·.1) <+: later.contents.map (·.1) ∧
          ∀ e ∈ store.contents, ∃ rs, (e.1, rs) ∈ later.contents ∧ e.2 <+: rs) ∧
      ∀ (v : Setup) (τ : Type) (other : Sink τ) (start : τ), v.resolver = u.resolver →
        (Processor.run v other rounds start).processor.store = store := by
  have hs := contents_run u sink rounds world
  refine ⟨hs, ?_, ?_, ?_, ?_⟩
  · rintro ⟨d, rs⟩ he r hr
    rw [hs] at he
    obtain ⟨-, rfl⟩ := mem_grouping he
    obtain ⟨t, ht, hsame⟩ := mem_recordsOf.1 hr
    obtain ⟨x, hx, hxt⟩ := List.mem_filterMap.1 ht
    exact ⟨x, hx, t, hxt, hsame⟩
  · rintro ⟨d, rs⟩ he
    rw [hs] at he
    obtain ⟨hd, rfl⟩ := mem_grouping he
    exact recordsOf_ne_nil hd
  · intro more
    have hl := contents_run u sink (rounds ++ more) world
    have happ : survivors u.resolver (rounds ++ more) =
        survivors u.resolver rounds ++ survivors u.resolver more := by simp [survivors]
    have htypes : ∀ l, (grouping l).map (·.1) = firstSpellings (l.map (·.1)) := fun l => by
      simp [grouping, Function.comp_def]
    have hpre : firstSpellings ((survivors u.resolver rounds).map (·.1)) <+:
        firstSpellings ((survivors u.resolver (rounds ++ more)).map (·.1)) := by
      rw [happ, List.map_append]
      exact firstSpellings_prefix _ _
    simp only [hs, hl, htypes]
    refine ⟨hpre, ?_⟩
    rintro ⟨d, rs⟩ he
    obtain ⟨hd, rfl⟩ := mem_grouping he
    refine ⟨recordsOf (survivors u.resolver (rounds ++ more)) d, ?_, ?_⟩
    · exact List.mem_map.2 ⟨d, hpre.subset hd, rfl⟩
    · rw [happ]
      exact recordsOf_prefix _ _ d
  · intro v τ other start hv
    apply contents_inj
    rw [hs, contents_run, hv]

end

/-- Two rounds about one class that is spelled in two ways, with a static field and a field that
cannot be resolved among them. -/
def twoSpellings : List Round :=
  [⟨[⟨⟨"a", "B.C"⟩, "x", .named "int", .empty⟩,
      ⟨⟨"a.B", "C"⟩, "s", .named "int", .ofList [.static]⟩], false⟩,
    ⟨[⟨⟨"a.B", "C"⟩, "o", .named "Object", .empty⟩, ⟨⟨"a.B", "C"⟩, "y", .named "int", .empty⟩,
      ⟨⟨"a", "B.C"⟩, "x", .named "int", .empty⟩], true⟩]

/-- The same class has one entry, whatever the policy and the sink. -/
theorem store_run_eq_grouping_twoSpellings :
    let u : Setup := ⟨.default, .refusing ["Object"] (.constant .int), fun _ _ _ _ _ => pure ()⟩
    let v : Setup := { u with settings := ⟨"_", .finalRound, .note, .note⟩ }
    let sink : Sink Unit := ⟨fun _ _ => throw ⟨.other, "refused"⟩⟩
    let other : Sink Nat := ⟨fun _ _ => do modify (· + 1); return ⟨fun _ => pure (), pure ()⟩⟩
    let store := (Processor.run u sink twoSpellings ()).processor.store
    let entry := (⟨"a", "B.C"⟩, [⟨"x", "a.B.C.x", .named "int", .int⟩,
      ⟨"y", "a.B.C.y", .named "int", .int⟩])
    store.contents = [entry] ∧ entry.2 ≠ [] ∧
      (∃ x ∈ twoSpellings.flatMap Round.elements, ∃ d : DeclaringType,
        x.survivor? u.resolver = some (d, ⟨"y", "a.B.C.y", .named "int", .int⟩) ∧
          d.same entry.1 = true) ∧
      (∃ rs, (entry.1, rs) ∈
        (Processor.run u sink (twoSpellings ++ twoSpellings) ()).processor.store.contents ∧
          entry.2 <+: rs) ∧
      (Processor.run v other twoSpellings 0).processor.store = store := by
  intro u v sink other store entry
  obtain ⟨hs, hfrom, hne, hmore, hany⟩ := store_run_eq_grouping u sink twoSpellings ()
  have hc : store.contents = [entry] := by
    rw [hs]
    decide +kernel
  have he : entry ∈ store.contents := by rw [hc]; exact List.mem_singleton_self entry
  exact ⟨hc, hne entry he, hfrom entry he _ (by simp [entry]), (hmore twoSpellings).2 entry he,
    hany v Nat other 0 rfl⟩

end SavedState
