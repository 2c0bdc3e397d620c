import Mathlib.Data.List.Nodup
import SavedState.Proofs.Grouping
import SavedState.Proofs.Inheritance
import SavedState.Proofs.Reading
import SavedState.Proofs.WrittenOnce

/-!
Fields that are seen again.

A record is known by all that it holds, and the type in it holds what the hierarchy of its
manifest tells of the classes in the type. So a field that is seen again joins its record just if
both manifests tell the same of these classes. Where each field has one record, helpers save
under each key once, and what is called late is not in the helper.
-/

namespace SavedState

/-- No type has two records under one key. -/
def Store.UniqueKeys (s : Store) : Prop :=
  ∀ e ∈ s.contents, (e.2.map FieldRecord.key).Nodup

/-- Two hierarchies tell the same of every class in the type that a text is read as. -/
def Hierarchy.Agrees (h h' : Hierarchy) (text : String) : Prop :=
  ∀ t, FieldType.read text = .ok t → ∀ n ∈ t.mentions, ∀ x, h.Reaches n x ↔ h'.Reaches n x

/-- An entry of a manifest is saved as a record: no modifier bars it, and its type is resolved. -/
def Manifest.Saves (resolver : Resolver) (m : Manifest) (e : ManifestEntry) (r : FieldRecord) :
    Prop :=
  e ∈ m.entries ∧ ∃ x, e.toElement m.hierarchy.closed = .ok x ∧
    x.survivor? resolver = some (e.enclosing, r)

variable {resolver : Resolver}

/-! ### Records of one field -/

section

variable {h h' : Hierarchy} {text : String} {t : FieldType}

lemma agrees_iff (ht : FieldType.read text = .ok t) : h.Agrees h' text ↔
    t.inherit h.closed.parents = t.inherit h'.closed.parents := by
  have hclosed : ∀ n, (∀ x, x ∈ h.closed.parents n ↔ x ∈ h'.closed.parents n) ↔
      ∀ x, h.Reaches n x ↔ h'.Reaches n x := by
    intro n
    refine forall_congr' fun x => ?_
    rw [Hierarchy.mem_parents_closed, Hierarchy.mem_parents_closed]
    by_cases hx : x = n
    · subst hx
      exact iff_of_true (by simp) (iff_of_true .refl .refl)
    · rw [and_iff_right hx, and_iff_right hx]
  rw [← FieldType.bare_of_read ht, FieldType.inherit_bare_eq_iff]
  simp only [hclosed, Hierarchy.Agrees, ht, Except.ok.injEq, forall_eq']

variable {m m' : Manifest} {e e' : ManifestEntry} {r r' : FieldRecord}

/-- What an entry is saved as. -/
lemma Manifest.Saves.eq_of (hr : m.Saves resolver e r) : ∃ t a, FieldType.read e.type = .ok t ∧
    resolver (t.inherit m.hierarchy.closed.parents) = .ok a ∧
    r = .of e.enclosing e.name (t.inherit m.hierarchy.closed.parents) a := by
  obtain ⟨-, x, hx, hsurvives⟩ := hr
  obtain ⟨t, ht, rfl⟩ := ManifestEntry.toElement_eq_ok_iff.1 hx
  obtain ⟨-, a, ha, hr⟩ := Element.of_survivor? hsurvives
  exact ⟨t, a, ht, ha, hr⟩

/-- **A field that is seen twice has one record** just if the two manifests agree on its type. -/
lemma Manifest.Saves.eq_iff_agrees (hr : m.Saves resolver e r) (hr' : m'.Saves resolver e' r')
    (hkey : e.enclosing.fieldKey e.name = e'.enclosing.fieldKey e'.name)
    (hname : e.name = e'.name) (htype : e.type = e'.type) :
    r = r' ↔ m.hierarchy.Agrees m'.hierarchy e.type := by
  obtain ⟨t, a, ht, ha, rfl⟩ := hr.eq_of
  obtain ⟨t', a', ht', ha', rfl⟩ := hr'.eq_of
  have hread : t = t' := by
    rw [htype, ht'] at ht
    exact (Except.ok.inj ht).symm
  subst hread
  rw [agrees_iff ht]
  constructor
  · exact fun h => congrArg FieldRecord.type h
  · intro h
    rw [← h, ha] at ha'
    rw [FieldRecord.of, FieldRecord.of, hkey, hname, h, Except.ok.inj ha']

end

/-! ### Stores -/

/-- Records with one key are one, wherever they come from, just if no key comes twice. -/
lemma uniqueKeys_iff {s : Store} {l : List (DeclaringType × FieldRecord)}
    (hs : s.contents = grouping l) : s.UniqueKeys ↔ ∀ d r d' r', (d, r) ∈ l → (d', r') ∈ l →
      d.same d' = true → r.key = r'.key → r = r' := by
  have hinj : ∀ e ∈ s.contents, (e.2.map FieldRecord.key).Nodup ↔
      ∀ r ∈ e.2, ∀ r' ∈ e.2, r.key = r'.key → r = r' := by
    intro e he
    obtain ⟨x, -, rfl⟩ := List.mem_map.1 he
    exact List.nodup_map_iff_inj_on x.2.nodup
  unfold Store.UniqueKeys
  rw [forall₂_congr hinj, hs]
  constructor
  · intro h d r d' r' hr hr' hd hkey
    have hany : (firstSpellings (l.map (·.1))).any (·.same d) = true := by
      rw [any_firstSpellings]
      exact List.any_eq_true.2 ⟨d, List.mem_map_of_mem hr, DeclaringType.same_refl d⟩
    obtain ⟨t, ht, htd⟩ := List.any_eq_true.1 hany
    have hdt : d.same t = true := DeclaringType.same_symm htd
    have hd't : d'.same t = true := DeclaringType.same_trans (DeclaringType.same_symm hd) hdt
    exact h (t, recordsOf l t) (List.mem_map_of_mem ht) r (mem_recordsOf.2 ⟨d, hr, hdt⟩)
      r' (mem_recordsOf.2 ⟨d', hr', hd't⟩) hkey
  · rintro h ⟨t, rs⟩ he r hr r' hr' hkey
    obtain ⟨-, rfl⟩ := mem_grouping he
    obtain ⟨d, hr, hd⟩ := mem_recordsOf.1 hr
    obtain ⟨d', hr', hd'⟩ := mem_recordsOf.1 hr'
    exact h d r d' r' hr hr' (DeclaringType.same_trans hd (DeclaringType.same_symm hd')) hkey

/-- What survives of rounds is what the manifests that they come of save. -/
lemma mem_survivors_iff {ms : List Manifest} {rounds : List Round}
    (h : List.Forall₂ (fun m round => ∃ isFinal, m.toRound isFinal = .ok round) ms rounds)
    {d : DeclaringType} {r : FieldRecord} : (d, r) ∈ survivors resolver rounds ↔
      ∃ m ∈ ms, ∃ e, m.Saves resolver e r ∧ d = e.enclosing := by
  induction h with
  | nil => simp [survivors]
  | @cons m round ms rounds hround _ ih =>
    obtain ⟨isFinal, hround⟩ := hround
    have helements := (Manifest.toRound_eq_ok_iff.1 hround).2
    have hfirst : (d, r) ∈ round.elements.filterMap (Element.survivor? resolver) ↔
        ∃ e, m.Saves resolver e r ∧ d = e.enclosing := by
      rw [List.mem_filterMap]
      constructor
      · rintro ⟨x, hx, hsurvives⟩
        obtain ⟨e, he, hex⟩ := (mem_iff_of_forall₂ helements).1 hx
        obtain ⟨t, -, rfl⟩ := ManifestEntry.toElement_eq_ok_iff.1 hex
        obtain ⟨rfl, -⟩ := Element.of_survivor? hsurvives
        exact ⟨e, ⟨he, _, hex, hsurvives⟩, rfl⟩
      · rintro ⟨e, ⟨he, x, hex, hsurvives⟩, rfl⟩
        exact ⟨x, (mem_iff_of_forall₂ helements).2 ⟨e, he, hex⟩, hsurvives⟩
    have hcons : survivors resolver (round :: rounds) =
        round.elements.filterMap (Element.survivor? resolver) ++ survivors resolver rounds := by
      simp [survivors]
    rw [hcons, List.mem_append, hfirst, ih, List.exists_mem_cons_iff]

/-! ### Helpers -/

namespace Processor

variable {σ : Type} {u : Setup} {sink : Sink σ} {world : σ} {d t : DeclaringType} {p : Processor}

/-- A helper is written of the records that the store has of its type then, after those of the types
before it. -/
lemma exists_emit_of_written {r : Round} {a : String} {n : Nat}
    (hw : .written a n ∈ ((p.process u sink r world).view d).outcomes) :
    ∃ t fields front rest, (p.gathered u r).entries = front ++ (t, fields) :: rest ∧
      t.same d = true ∧
      (u.driver.emit sink t fields (partway u sink p world front).world).1 = (.written a n, []) ∧
      (p.process u sink r world).processor.emitted.get? d = some fields.size := by
  cases view_process_cases u sink p r world d with
  | idle _ hv =>
    rw [hv] at hw
    exact absurd hw List.not_mem_nil
  | known t fields n' _ _ _ _ _ hv =>
    rw [hv] at hw
    cases List.mem_singleton.1 hw
  | tried t fields front rest he hs ht _ hv =>
    rcases emit_cases sink u.driver t fields (partway u sink p world front).world with
      hemit | ⟨e, hemit⟩
    · rw [hemit] at hv
      rw [hv] at hw
      cases List.mem_singleton.1 hw
      exact ⟨t, fields, front, rest, hs, ht, hemit, congrArg View.known hv⟩
    · rw [hemit] at hv
      rw [hv] at hw
      cases List.mem_singleton.1 hw

/-- Where every type is tried in every round, nothing is called late. -/
lemma filter_isLateFor_of_attempt (hu : u.settings.reemit = .attempt) (r : Round) :
    (p.process u sink r world).diagnostics.filter (·.isLateFor d) = [] := by
  rw [filter_isLateFor]
  cases view_process_cases u sink p r world d with
  | idle _ hv =>
    rw [hv]
    rfl
  | known t fields n hu' _ _ _ _ _ => exact absurd hu hu'
  | tried t fields front rest _ _ _ _ hv =>
    rw [hv]
    exact filter_isLateFor_emit sink u.driver fields (partway u sink p world front).world

/-- What is called late after a helper has been written comes after its records in the store. -/
lemma late_after_written (ht : t.same d = true) {fields : FieldSet}
    (hm : (t, fields) ∈ p.store.entries) (hn : p.emitted.get? d = some fields.size)
    (rounds : List Round) {x : Diagnostic}
    (hx : x ∈ (steps u sink p world rounds).flatMap Step.diagnostics)
    (hlate : x.isLateFor d = true) :
    ∃ records all, x = lateNotice t records ∧
      (t, all) ∈ (after u sink p world rounds).1.store.entries ∧
      (fields.toList ++ records).Sublist all.toList := by
  have hmem : x ∈ ((steps u sink p world rounds).flatMap Step.diagnostics).filter
      (·.isLateFor d) := List.mem_filter.2 ⟨hx, hlate⟩
  by_cases hu : u.settings.reemit = .attempt
  · have hnone : ((steps u sink p world rounds).flatMap Step.diagnostics).filter
        (·.isLateFor d) = [] := by
      clear hx hmem hm hn
      induction rounds generalizing p world with
      | nil => rfl
      | cons r rounds ih =>
        rw [steps_cons, List.flatMap_cons, List.filter_append, filter_isLateFor_of_attempt hu, ih,
          List.nil_append]
    rw [hnone] at hmem
    exact absurd hmem List.not_mem_nil
  · obtain ⟨settled, late, -, happ, -, hview, -, all, hall, hpre⟩ :=
      late_records sink world hu ht hm hn rounds
    rw [filter_flatMap_isLateFor, ← List.filter_flatMap, hview] at hmem
    obtain ⟨records, hrecords, rfl⟩ := List.mem_map.1 (List.mem_of_mem_filter hmem)
    refine ⟨records, all, rfl, hall, List.Sublist.trans ?_ hpre.sublist⟩
    rw [happ]
    exact (List.Sublist.refl _).append (List.sublist_flatten_of_mem hrecords)

/-! ### Runs -/

section

variable {ms : List Manifest} {rounds : List Round}
  (hread : ∀ m ∈ ms, ∃ text, Manifest.ofText text = .ok m)
  (hrounds : List.Forall₂ (fun m round => ∃ isFinal, m.toRound isFinal = .ok round) ms rounds)

include hread hrounds

/-- Where each record of a run comes from: a field of a proper type. -/
lemma exists_saves_of_mem_survivors {r : FieldRecord} (h : (d, r) ∈ survivors u.resolver rounds) :
    d.IsProper ∧ r.key = d.fieldKey r.name ∧ ∃ m ∈ ms, ∃ e, m.Saves u.resolver e r ∧
      d = e.enclosing ∧ r.name = e.name := by
  obtain ⟨m, hm, e, hr, rfl⟩ := (mem_survivors_iff hrounds).1 h
  obtain ⟨text, ht⟩ := hread m hm
  obtain ⟨t, a, -, -, hof⟩ := hr.eq_of
  exact ⟨Manifest.isProper_of_ofText ht e hr.1, by rw [hof]; rfl, m, hm, e, hr, rfl,
    by rw [hof]; rfl⟩

/-- The records of a type have one key just if they are records of one field. -/
lemma key_eq_key_iff (sink : Sink σ) (world : σ) {all : FieldSet}
    (hall : (t, all) ∈ (run u sink rounds world).processor.store.entries) {r r' : FieldRecord}
    (hr : r ∈ all.toList) (hr' : r' ∈ all.toList) : r.key = r'.key ↔ r.name = r'.name := by
  have hmem : (t, all.toList) ∈ grouping (survivors u.resolver rounds) := by
    rw [← contents_run u sink rounds world]
    exact List.mem_map_of_mem hall
  obtain ⟨-, hrecords⟩ := mem_grouping hmem
  rw [hrecords] at hr hr'
  obtain ⟨d, hd, hdt⟩ := mem_recordsOf.1 hr
  obtain ⟨d', hd', hdt'⟩ := mem_recordsOf.1 hr'
  obtain ⟨hproper, hkey, -⟩ := exists_saves_of_mem_survivors hread hrounds hd
  obtain ⟨hproper', hkey', -⟩ := exists_saves_of_mem_survivors hread hrounds hd'
  rw [hkey, hkey']
  exact DeclaringType.fieldKey_eq_iff hproper hproper'
    (DeclaringType.same_trans hdt (DeclaringType.same_symm hdt'))

/-- **No key comes twice just if the manifests agree** on the types of the fields that they share,
where a field has the same type text in all of them. -/
lemma uniqueKeys_run_iff (sink : Sink σ) (world : σ)
    (htext : ∀ m ∈ ms, ∀ m' ∈ ms, ∀ e ∈ m.entries, ∀ e' ∈ m'.entries,
      e.enclosing.same e'.enclosing = true → e.name = e'.name → e.type = e'.type) :
    (run u sink rounds world).processor.store.UniqueKeys ↔
      ∀ m ∈ ms, ∀ m' ∈ ms, ∀ e r e' r', m.Saves u.resolver e r → m'.Saves u.resolver e' r' →
        e.enclosing.same e'.enclosing = true → e.name = e'.name →
        m.hierarchy.Agrees m'.hierarchy e.type := by
  rw [uniqueKeys_iff (contents_run u sink rounds world)]
  constructor
  -- two sightings of one field are two records with one key, which must be one record
  · intro h m hm m' hm' e r e' r' hr hr' hsame hname
    have hsurvives : (e.enclosing, r) ∈ survivors u.resolver rounds :=
      (mem_survivors_iff hrounds).2 ⟨m, hm, e, hr, rfl⟩
    have hsurvives' : (e'.enclosing, r') ∈ survivors u.resolver rounds :=
      (mem_survivors_iff hrounds).2 ⟨m', hm', e', hr', rfl⟩
    obtain ⟨hproper, -⟩ := exists_saves_of_mem_survivors hread hrounds hsurvives
    obtain ⟨hproper', -⟩ := exists_saves_of_mem_survivors hread hrounds hsurvives'
    have hkey : e.enclosing.fieldKey e.name = e'.enclosing.fieldKey e'.name :=
      (DeclaringType.fieldKey_eq_iff hproper hproper' hsame).2 hname
    have hrecord : r.key = r'.key := by
      obtain ⟨t, a, -, -, rfl⟩ := hr.eq_of
      obtain ⟨t', a', -, -, rfl⟩ := hr'.eq_of
      exact hkey
    have htype := htext m hm m' hm' e hr.1 e' hr'.1 hsame hname
    exact (hr.eq_iff_agrees hr' hkey hname htype).1 (h _ r _ r' hsurvives hsurvives' hsame hrecord)
  -- two records with one key are two sightings of one field
  · intro h d r d' r' hsurvives hsurvives' hsame hrecord
    obtain ⟨hproper, hr, m, hm, e, hsaves, rfl, hname⟩ :=
      exists_saves_of_mem_survivors hread hrounds hsurvives
    obtain ⟨hproper', hr', m', hm', e', hsaves', rfl, hname'⟩ :=
      exists_saves_of_mem_survivors hread hrounds hsurvives'
    rw [hr, hr', hname, hname'] at hrecord
    have hnames := (DeclaringType.fieldKey_eq_iff hproper hproper' hsame).1 hrecord
    have htype := htext m hm m' hm' e hsaves.1 e' hsaves'.1 hsame hnames
    exact (hsaves.eq_iff_agrees hsaves' hrecord hnames htype).2
      (h m hm m' hm' e r e' r' hsaves hsaves' hsame hnames)

end

/-- **Fields that are seen again**, in manifests where a field has the same type text in all of
them. Each field has one record, under every policy, just if the hierarchies of any two manifests
that it is saved from tell the same of the classes in its type. Then a helper is written of a set
in which no key comes twice, in the world that the visits to the types before it have left, and what
is called late afterwards is the name of no field in it. -/
theorem seen_once_iff_hierarchies_agree (u : Setup) (sink : Sink σ) (world : σ)
    {ms : List Manifest} {rounds : List Round}
    (hread : ∀ m ∈ ms, ∃ text, Manifest.ofText text = .ok m)
    (hrounds : List.Forall₂ (fun m round => ∃ isFinal, m.toRound isFinal = .ok round) ms rounds)
    (htext : ∀ m ∈ ms, ∀ m' ∈ ms, ∀ e ∈ m.entries, ∀ e' ∈ m'.entries,
      e.enclosing.same e'.enclosing = true → e.name = e'.name → e.type = e'.type) :
    let store := (run u sink rounds world).processor.store
    (store.UniqueKeys ↔
      ∀ m ∈ ms, ∀ m' ∈ ms, ∀ e r e' r', m.Saves u.resolver e r → m'.Saves u.resolver e' r' →
        e.enclosing.same e'.enclosing = true → e.name = e'.name →
        m.hierarchy.Agrees m'.hierarchy e.type) ∧
      (store.UniqueKeys → ∀ before round later, rounds = before ++ round :: later →
        let h := run u sink before world
        let s := h.processor.process u sink round h.world
        ∀ d a n, .written a n ∈ (s.view d).outcomes →
          ∃ t fields front rest, s.processor.store.entries = front ++ (t, fields) :: rest ∧
            t.same d = true ∧
            (u.driver.emit sink t fields (partway u sink h.processor h.world front).world).1 =
              (.written a n, []) ∧
            (fields.toList.map FieldRecord.key).Nodup ∧
            ∀ x ∈ (steps u sink s.processor s.world later).flatMap Step.diagnostics,
              x.isLateFor d = true → ∃ records, x = lateNotice t records ∧
                ∀ r ∈ records, ∀ r' ∈ fields.toList, r.name ≠ r'.name) := by
  intro store
  refine ⟨uniqueKeys_run_iff hread hrounds sink world htext, ?_⟩
  intro hunique before round later hsplit h s d a n hw
  obtain ⟨t, fields, front, rest, hentries, ht, hemit, hn⟩ := exists_emit_of_written hw
  have hm : (t, fields) ∈ s.processor.store.entries := by
    change (t, fields) ∈ (h.processor.gathered u round).entries
    exact hentries ▸ List.mem_append_cons_self
  have hfinal : store = (after u sink s.processor s.world later).1.store := by
    simp only [store, s, h, run_eq, hsplit, after_append, after_cons]
  have hkeys : ∀ all, (t, all) ∈ store.entries → (all.toList.map FieldRecord.key).Nodup :=
    fun all hall => hunique _ (List.mem_map_of_mem hall)
  refine ⟨t, fields, front, rest, hentries, ht, hemit, ?_, fun x hx hlate => ?_⟩
  -- the store only grows, so keys that are apart in the end were apart in the helper
  · obtain ⟨all, hall, hpre⟩ := extends_after u sink s.processor s.world later t fields hm
    exact (hkeys all (hfinal ▸ hall)).sublist (hpre.sublist.map FieldRecord.key)
  · obtain ⟨records, all, rfl, hall, hsub⟩ := late_after_written ht hm hn later hx hlate
    rw [← hfinal] at hall
    have hapart := (hkeys all hall).sublist (hsub.map FieldRecord.key)
    rw [List.map_append, List.nodup_append] at hapart
    refine ⟨records, rfl, fun r hr r' hr' hname => ?_⟩
    have hkey := (key_eq_key_iff hread hrounds sink world hall
      (hsub.subset (List.mem_append_right _ hr)) (hsub.subset (List.mem_append_left _ hr'))).2 hname
    exact hapart.2.2 _ (List.mem_map_of_mem hr') _ (List.mem_map_of_mem hr) hkey.symm

/-- One manifest tells that dates are serializable, and the other one does not. Each of them may
come twice. The one after the other, they make two records of one field, which is called late
although the helper has it. -/
theorem seen_once_iff_hierarchies_agree_dates :
    let foo : DeclaringType := ⟨"a", "Foo"⟩
    let entry : ManifestEntry := ⟨foo, "when", "java.util.Date", .empty⟩
    let silent : Manifest := ⟨.empty, [entry]⟩
    let telling : Manifest := ⟨.ofList [("java.util.Date", ["java.io.Serializable"])], [entry]⟩
    let date : FieldType := .named "java.util.Date"
    let told : FieldType := { date with supertypes := .ofList ["java.io.Serializable"] }
    let round (type : FieldType) : Round := ⟨[⟨foo, "when", type, .empty⟩], false⟩
    let u : Setup := ⟨.default, .bundle, HelperText.emitter⟩
    let sink : Sink Unit := ⟨fun _ _ => return ⟨fun _ => pure (), pure ()⟩⟩
    silent.toRound false = .ok (round date) ∧ telling.toRound false = .ok (round told) ∧
      (run u sink [round date, round date] ()).processor.store.UniqueKeys ∧
      ¬(run u sink [round date, round told] ()).processor.store.UniqueKeys ∧
      (run u sink [round date, round told] ()).diagnostics =
        [lateNotice foo [.of foo "when" told .serializable]] := by
  intro foo entry silent telling date told round u sink
  have hread : ∀ m ∈ [silent, telling], ∃ text, Manifest.ofText text = .ok m := by
    rw [List.forall_mem_cons, List.forall_mem_singleton]
    exact ⟨⟨"[\x7b\x7d,[[\"a.Foo\",\"when\",\"java.util.Date\"]]]", by decide +kernel⟩,
      ⟨"[\x7b\"java.util.Date\":[\"java.io.Serializable\"]\x7d," ++
        "[[\"a.Foo\",\"when\",\"java.util.Date\"]]]", by decide +kernel⟩⟩
  have hreaches : ∀ x, telling.hierarchy.Reaches "java.util.Date" x ↔
      x = "java.util.Date" ∨ x = "java.io.Serializable" := fun x =>
    Hierarchy.reaches_iff_of_single (by decide +kernel) (by decide +kernel)
  have htold : date.inherit telling.hierarchy.closed.parents = told := by
    have hsupertypes : NameSet.empty.insertAll (telling.hierarchy.closed.parents "java.util.Date") =
        .ofList ["java.io.Serializable"] := by
      refine NameSet.ext_iff.2 fun x => ?_
      simp only [NameSet.mem_insertAll, NameSet.mem_ofList, NameSet.not_mem_empty, or_false,
        Hierarchy.mem_parents_closed, hreaches, List.mem_singleton]
      constructor
      · rintro ⟨hne, rfl | rfl⟩
        · exact absurd rfl hne
        · rfl
      · rintro rfl
        exact ⟨by decide, Or.inr rfl⟩
    rw [FieldType.inherit_eq]
    exact congrArg (FieldType.mk "java.util.Date" [] 0) hsupertypes
  have hdate : FieldType.read "java.util.Date" = .ok date := by decide +kernel
  have hx : entry.toElement silent.hierarchy.closed = .ok ⟨foo, "when", date, .empty⟩ := by
    decide +kernel
  have hx' : entry.toElement telling.hierarchy.closed = .ok ⟨foo, "when", told, .empty⟩ :=
    ManifestEntry.toElement_eq_ok_iff.2 ⟨date, hdate, by rw [htold]⟩
  have hsilent : silent.toRound false = .ok (round date) :=
    Manifest.toRound_eq_ok_iff.2 ⟨rfl, .cons hx .nil⟩
  have htelling : telling.toRound false = .ok (round told) :=
    Manifest.toRound_eq_ok_iff.2 ⟨rfl, .cons hx' .nil⟩
  have htext : ∀ ms ⊆ [silent, telling], ∀ m ∈ ms, ∀ m' ∈ ms, ∀ e ∈ m.entries, ∀ e' ∈ m'.entries,
      e.enclosing.same e'.enclosing = true → e.name = e'.name → e.type = e'.type := by
    have hentries : ∀ m ∈ [silent, telling], m.entries = [entry] := by
      rw [List.forall_mem_cons, List.forall_mem_singleton]
      exact ⟨rfl, rfl⟩
    intro ms hms m hm m' hm' e he e' he' _ _
    rw [hentries m (hms hm), List.mem_singleton] at he
    rw [hentries m' (hms hm'), List.mem_singleton] at he'
    rw [he, he']
  have hsub : [silent, silent] ⊆ [silent, telling] := by simp
  have htwice := (seen_once_iff_hierarchies_agree u sink () (fun m hm => hread m (hsub hm))
    (.cons ⟨false, hsilent⟩ (.cons ⟨false, hsilent⟩ .nil)) (htext _ hsub)).1
  have hboth := (seen_once_iff_hierarchies_agree u sink () hread
    (.cons ⟨false, hsilent⟩ (.cons ⟨false, htelling⟩ .nil)) (htext _ (List.Subset.refl _))).1
  refine ⟨hsilent, htelling, htwice.2 ?_, fun hunique => ?_, by decide +kernel⟩
  · intro m hm m' hm' e r e' r' _ _ _ _ t _ n _ x
    have hm : m = silent := by simpa using hm
    have hm' : m' = silent := by simpa using hm'
    rw [hm, hm']
  · have hsaves : silent.Saves .bundle entry (.of foo "when" date .serializable) :=
      ⟨.head _, _, hx, by decide +kernel⟩
    have hsaves' : telling.Saves .bundle entry (.of foo "when" told .serializable) :=
      ⟨.head _, _, hx', by decide +kernel⟩
    have hagrees := hboth.1 hunique silent (.head _) telling (.tail _ (.head _)) entry _ entry _
      hsaves hsaves' (DeclaringType.same_refl foo) rfl date hdate "java.util.Date" (.head _)
      "java.io.Serializable"
    have hpath := hagrees.2 ((hreaches _).2 (Or.inr rfl))
    have hnothing : silent.hierarchy.entries.lookup "java.util.Date" = none := rfl
    have hne : "java.io.Serializable" ≠ "java.util.Date" := by decide
    exact hne ((Hierarchy.path_iff_of_no_entry hnothing).1 (Hierarchy.reaches_iff.1 hpath))

end Processor

end SavedState
