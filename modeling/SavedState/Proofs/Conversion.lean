import SavedState.Proofs.BrokenManifests
import SavedState.Proofs.TransitiveClosure
import SavedState.Proofs.TypeRoundTrip

/-!
What a manifest is converted to.

There is a round just if the type of each entry can be read. An element takes over what its entry
says, and its type is what has been read, where every node of the type has come to know the closed
ancestors of its own name, arguments like the type itself, and nothing else. An entry whose type
cannot be read leaves nothing of the others; of several such entries the first one tells what is
wrong.
-/

namespace SavedState

namespace FieldType

variable {parents : String → List String} {t u : FieldType}

mutual

/-- All supertypes in a type come from `parents` just if each node has those of its name. -/
lemma eq_inherit_bare_iff (depth : Nat) : ∀ t : FieldType, t = t.bare.inherit parents ↔
    ∀ e ∈ t.nodes depth, ∀ a, a ∈ e.2.supertypes ↔ a ∈ parents e.2.name
  | ⟨name, arguments, dimensions, supertypes⟩ => by
    have hsupertypes : supertypes = NameSet.empty.insertAll (parents name) ↔
        ∀ a, a ∈ supertypes ↔ a ∈ parents name := by
      simp [NameSet.ext_iff]
    rw [nodes, List.forall_mem_cons, ← hsupertypes,
      ← eq_inheritAll_bareAll_iff (depth + 1) arguments, bare, inherit, FieldType.mk.injEq]
    exact ⟨fun h => ⟨h.2.2.2, h.2.1⟩, fun h => ⟨rfl, h.2, rfl, h.1⟩⟩

lemma eq_inheritAll_bareAll_iff (depth : Nat) : ∀ l : List FieldType,
    l = inheritAll parents (bareAll l) ↔
      ∀ e ∈ nodesAll depth l, ∀ a, a ∈ e.2.supertypes ↔ a ∈ parents e.2.name
  | [] => iff_of_true rfl (List.forall_mem_nil _)
  | a :: as => by
    rw [nodesAll, List.forall_mem_append, ← eq_inherit_bare_iff depth a,
      ← eq_inheritAll_bareAll_iff depth as, bareAll, inheritAll, List.cons.injEq]

end

/-- A bare type that has inherited is known by its text and by the supertypes at its nodes. -/
lemma eq_inherit_iff (hu : u.bare = u) : t = u.inherit parents ↔
    t.bare = u ∧ ∀ e ∈ t.nodes 0, ∀ a, a ∈ e.2.supertypes ↔ a ∈ parents e.2.name := by
  rw [← eq_inherit_bare_iff]
  constructor
  · rintro rfl
    rw [bare_inherit, hu]
    exact ⟨rfl, rfl⟩
  · rintro ⟨rfl, ht⟩
    exact ht

end FieldType

open FieldType

variable {h : Hierarchy} {m : Manifest} {path : String} {isFinal : Bool}

/-! ### Elements -/

/-- Whether an element is that of an entry, where the hierarchy is `h`. -/
structure ManifestEntry.Describes (h : Hierarchy) (e : ManifestEntry) (x : Element) : Prop where
  enclosing : x.enclosing = e.enclosing
  name : x.name = e.name
  modifiers : x.modifiers = e.modifiers
  type : ∃ t, read e.type = .ok t ∧ x.type.bare = t ∧ x.type.render = t.render
  supertypes : ∀ node ∈ x.type.nodes 0, ∀ a, a ∈ node.2.supertypes ↔
    a ≠ node.2.name ∧ Relation.TransGen (fun c d => d ∈ h.parents c) node.2.name a
  undescribed : ∀ node ∈ x.type.nodes 0, h.entries.lookup node.2.name = none →
    node.2.supertypes = .empty

lemma Hierarchy.mem_keys_of_mem_parents {n a : String} (ha : a ∈ h.parents n) :
    n ∈ h.entries.map (·.1) := by
  obtain ⟨s, hs, -⟩ := Hierarchy.mem_parents_iff.1 ha
  obtain ⟨front, back, hentries, -⟩ := List.lookup_eq_some_iff.1 hs
  rw [hentries]
  simp

/-- A class without an entry has no ancestors. -/
lemma Hierarchy.not_mem_parents_closed {n a : String} (hn : h.entries.lookup n = none) :
    a ∉ h.closed.parents n := by
  rw [Hierarchy.mem_parents_closed_iff]
  rintro ⟨-, hpath⟩
  obtain ⟨b, hb, -⟩ := Relation.TransGen.head'_iff.1 hpath
  obtain ⟨s, hs, -⟩ := Hierarchy.mem_parents_iff.1 hb
  rw [hn] at hs
  cases hs

lemma ManifestEntry.toElement_eq_ok_iff_describes {e : ManifestEntry} {x : Element} :
    e.toElement h.closed = .ok x ↔ e.Describes h x := by
  rw [toElement_eq_ok_iff]
  constructor
  · rintro ⟨t, ht, rfl⟩
    have hbare := bare_of_read ht
    have hnodes := ((eq_inherit_iff hbare).1 (Eq.refl (t.inherit h.closed.parents))).2
    refine ⟨rfl, rfl, rfl, ⟨t, ht, (bare_inherit t).trans hbare, render_inherit t⟩, ?_, ?_⟩
    · intro node hnode a
      rw [hnodes node hnode a, Hierarchy.mem_parents_closed_iff]
    · intro node hnode hnone
      refine NameSet.ext_iff.2 fun a => ?_
      rw [hnodes node hnode a]
      exact iff_of_false (Hierarchy.not_mem_parents_closed hnone) NameSet.not_mem_empty
  · rintro hx
    obtain ⟨t, ht, hbare, -⟩ := hx.type
    refine ⟨t, ht, ?_⟩
    have htype : x.type = t.inherit h.closed.parents := by
      refine (eq_inherit_iff (bare_of_read ht)).2 ⟨hbare, fun node hnode a => ?_⟩
      rw [hx.supertypes node hnode a, Hierarchy.mem_parents_closed_iff]
    rw [← htype, ← hx.enclosing, ← hx.name, ← hx.modifiers]

/-! ### Rounds -/

namespace Manifest

/-- The round of a manifest that has been loaded from a path. -/
def convert (m : Manifest) (path : String) (isFinal : Bool) : Except RunError Round :=
  (m.toRound isFinal).mapError (.element path)

lemma convert_eq_ok_iff {r : Round} :
    m.convert path isFinal = .ok r ↔ m.toRound isFinal = .ok r := by
  unfold convert
  cases m.toRound isFinal <;> simp [Except.mapError]

/-- The first entry with a type that cannot be read, and what is wrong with that type. -/
def FirstUnreadable (l : List ManifestEntry) (source : TypeSyntaxError) : Prop :=
  ∃ before e after, l = before ++ e :: after ∧
    (∀ x ∈ before, ∃ t, read x.type = .ok t) ∧ read e.type = .error source

lemma toRound_eq_error_iff {source : TypeSyntaxError} :
    m.toRound isFinal = .error source ↔ FirstUnreadable m.entries source := by
  have hround : m.toRound isFinal = .error source ↔
      m.entries.mapM (fun e => e.toElement m.hierarchy.closed) = .error source := by
    unfold toRound
    dsimp only
    cases m.entries.mapM (fun e => e.toElement m.hierarchy.closed) with
    | error err => exact ⟨fun h => by cases h; rfl, fun h => by cases h; rfl⟩
    | ok elements => exact iff_of_false nofun nofun
  rw [hround]
  constructor
  · intro herror
    obtain ⟨before, e, after, hentries, hbefore, he⟩ := exists_of_mapM_eq_error herror
    exact ⟨before, e, after, hentries, fun x hx => exists_toElement_eq_ok.1 (hbefore x hx),
      toElement_eq_error.1 he⟩
  · rintro ⟨before, e, after, hentries, hbefore, he⟩
    rw [hentries]
    exact mapM_eq_error (fun x hx => exists_toElement_eq_ok.2 (hbefore x hx))
      (toElement_eq_error.2 he)

lemma convert_eq_error_iff {err : RunError} : m.convert path isFinal = .error err ↔
    ∃ source, FirstUnreadable m.entries source ∧ err = .element path source := by
  have hfirst : ∀ source, FirstUnreadable m.entries source ↔ m.toRound isFinal = .error source :=
    fun _ => toRound_eq_error_iff.symm
  simp only [hfirst]
  unfold convert
  cases m.toRound isFinal <;> simp [Except.mapError, eq_comm]

lemma toRound_eq_ok_iff_describes {r : Round} : m.toRound isFinal = .ok r ↔
    r.isFinal = isFinal ∧
      List.Forall₂ (ManifestEntry.Describes m.hierarchy) m.entries r.elements := by
  simp only [toRound_eq_ok_iff, ManifestEntry.toElement_eq_ok_iff_describes]

lemma exists_toRound_eq_ok_iff :
    (∃ r, m.toRound isFinal = .ok r) ↔ ∀ e ∈ m.entries, ∃ t, read e.type = .ok t := by
  constructor
  · rintro ⟨r, hr⟩
    have hdescribes := (toRound_eq_ok_iff_describes.1 hr).2
    refine (List.forall₂_and_left _ _).1 (hdescribes.imp fun e x hx => ⟨?_, hx⟩) |>.1
    obtain ⟨t, ht, -⟩ := hx.type
    exact ⟨t, ht⟩
  · intro hread
    cases hround : m.toRound isFinal with
    | ok r => exact ⟨r, rfl⟩
    | error source =>
      obtain ⟨before, e, after, hentries, -, he⟩ := toRound_eq_error_iff.1 hround
      obtain ⟨t, ht⟩ := hread e (by simp [hentries])
      rw [ht] at he
      cases he

lemma load_eq_convert {host : Host} (hm : load host path = .ok m) :
    Round.load host path isFinal = m.convert path isFinal := by
  unfold Round.load
  rw [hm]
  rfl

/-- **Manifests are converted whole and exactly, or not at all.** There is a round just if the
types of all entries can be read. Its elements are those of the entries, one for each in their
order, and every node of their types knows the closed ancestors of its name. Otherwise the error
is that of the first entry whose type cannot be read, and names the manifest. -/
theorem conversion_exact (m : Manifest) (path : String) (isFinal : Bool) :
    ((∃ round, m.convert path isFinal = .ok round) ↔
      ∀ e ∈ m.entries, ∃ t, read e.type = .ok t) ∧
    (∀ round, m.convert path isFinal = .ok round ↔ round.isFinal = isFinal ∧
      round.elements.length = m.entries.length ∧
      List.Forall₂ (ManifestEntry.Describes m.hierarchy) m.entries round.elements) ∧
    (∀ err, m.convert path isFinal = .error err ↔
      ∃ source, FirstUnreadable m.entries source ∧ err = .element path source) ∧
    ∀ host, load host path = .ok m → Round.load host path isFinal = m.convert path isFinal := by
  simp only [convert_eq_ok_iff]
  refine ⟨exists_toRound_eq_ok_iff, fun round => ?_, fun err => convert_eq_error_iff,
    fun host => load_eq_convert⟩
  rw [toRound_eq_ok_iff_describes]
  exact and_congr_right fun _ => ⟨fun h => ⟨h.length_eq.symm, h⟩, And.right⟩

/-- Two classes extend each other. Behind brackets and between angles, each comes to know the
other and what the other extends, but not itself. One entry that cannot be read is enough for an
error. -/
theorem conversion_exact_nested :
    let h := Hierarchy.ofList [("a.A", ["a.B"]), ("a.B", ["a.A", "a.C"])]
    let maps : FieldType := ⟨"java.util.Map", [⟨"a.A", [], 1, .empty⟩,
      ⟨"java.util.List", [named "a.B"], 0, .empty⟩], 2, .empty⟩
    let entry (text : String) : ManifestEntry := ⟨⟨"a", "Foo"⟩, "x", text, .empty⟩
    let m : Manifest := ⟨h, [entry maps.render]⟩
    let broken : Manifest := ⟨h, [entry maps.render, entry "a.A[", entry "<"]⟩
    maps.render = "java.util.Map<a.A[], java.util.List<a.B>>[][]" ∧
      (∃ x, m.convert "m.json" true = .ok ⟨[x], true⟩ ∧ x.type.render = maps.render ∧
        ∀ node ∈ x.type.nodes 0, ("a.C" ∈ node.2.supertypes ↔ node.2.name ∈ ["a.A", "a.B"]) ∧
          node.2.name ∉ node.2.supertypes) ∧
      ∃ source, read "a.A[" = .error source ∧
        broken.convert "m.json" true = .error (.element "m.json" source) := by
  intro h maps entry m broken
  have hmaps : read maps.render = .ok maps.bare := read_render (by decide +kernel)
  have hread : ∀ e ∈ m.entries, ∃ t, read e.type = .ok t := by
    simpa [m, entry] using ⟨_, hmaps⟩
  have hkeys : h.entries.map (·.1) = ["a.A", "a.B"] := by decide +kernel
  have hpath : ∀ n ∈ ["a.A", "a.B"], Relation.TransGen (fun c d => d ∈ h.parents c) n "a.C" := by
    have hb : Relation.TransGen (fun c d => d ∈ h.parents c) "a.B" "a.C" :=
      .single (by decide +kernel)
    simpa using ⟨.head (by decide +kernel) hb, hb⟩
  refine ⟨by decide +kernel, ?_, ?_⟩
  · obtain ⟨⟨elements, final⟩, hround⟩ := (conversion_exact m "m.json" true).1.2 hread
    obtain ⟨hfinal, -, helements⟩ := ((conversion_exact m "m.json" true).2.1 _).1 hround
    cases hfinal
    cases helements with
    | cons hx hnil =>
      cases hnil
      refine ⟨_, hround, ?_, fun node hnode => ⟨?_, fun hself => ?_⟩⟩
      · obtain ⟨t, ht, -, hrender⟩ := hx.type
        cases hmaps.symm.trans ht
        rw [hrender, render_bare]
      · rw [hx.supertypes node hnode]
        constructor
        · rintro ⟨-, hsteps⟩
          obtain ⟨b, hb, -⟩ := Relation.TransGen.head'_iff.1 hsteps
          exact hkeys ▸ Hierarchy.mem_keys_of_mem_parents hb
        · intro hname
          refine ⟨fun he => ?_, hpath _ hname⟩
          rw [← he] at hname
          exact absurd hname (by decide)
      · exact ((hx.supertypes node hnode _).1 hself).1 rfl
  · cases hbad : read "a.A[" with
    | ok t =>
      have hnone : (read "a.A[").toOption.isNone = true := by decide +kernel
      rw [hbad] at hnone
      cases hnone
    | error source =>
      have hfirst : FirstUnreadable broken.entries source :=
        ⟨[entry maps.render], entry "a.A[", [entry "<"], rfl, by simpa [entry] using ⟨_, hmaps⟩,
          hbad⟩
      exact ⟨source, rfl, ((conversion_exact broken "m.json" true).2.2.1 _).2 ⟨source, hfirst, rfl⟩⟩

end Manifest

end SavedState
