import SavedState.Proofs.CanonicalSplit
import SavedState.Proofs.Mirroring

/-!
The keys under which fields are saved.

A key is the qualified name of a type with the name of a field behind it. Where the name of the
field has no dot, the last dot of the key is the end of the type, so a key tells its type and its
field. It does so for the types in a type as well: a longer type makes a longer key.
-/

namespace SavedState

namespace DeclaringType

variable {d t : DeclaringType} {m n s more : String}

/-! ### Keys -/

namespace IsGapless

lemma fieldKey_eq (h : d.IsGapless) (n : String) :
    d.fieldKey n = Text.dotted (d.segments ++ [n]) := by
  have hone : ".".intercalate [n] = n := String.intercalate_singleton
  rw [fieldKey, h.qualified_eq, Text.dotted, Text.dotted,
    String.intercalate_append_of_ne_nil d.segments_ne_nil (List.cons_ne_nil n []), hone]

/-- The segments of a key are those of the type, and the field comes last. -/
lemma segments_fieldKey (h : d.IsGapless) (hn : '.' ∉ n.toList) :
    Text.segments (d.fieldKey n) = d.segments ++ [n] := by
  rw [h.fieldKey_eq]
  apply Text.segments_dotted
  · simp
  · intro s hs
    rcases List.mem_append.1 hs with hs | hs
    · exact d.dot_not_mem_segments s hs
    · rwa [List.mem_singleton.1 hs]

/-- **A key tells its type and its field.** -/
lemma fieldKey_eq_fieldKey_iff (hd : d.IsGapless) (ht : t.IsGapless) (hm : '.' ∉ m.toList)
    (hn : '.' ∉ n.toList) : d.fieldKey m = t.fieldKey n ↔ d.same t = true ∧ m = n := by
  constructor
  · intro h
    have hsegments : d.segments ++ [m] = t.segments ++ [n] := by
      rw [← hd.segments_fieldKey hm, h, ht.segments_fieldKey hn]
    obtain ⟨htype, hfield⟩ := List.append_inj' hsegments rfl
    exact ⟨same_iff.2 htype, List.singleton_inj.1 hfield⟩
  · rintro ⟨hsame, rfl⟩
    rw [fieldKey, fieldKey, (hd.qualified_eq_iff ht).2 hsame]

end IsGapless

/-- A type is another one than the types in it. -/
lemma not_same_of_nested (hd : read s = .ok d) (ht : read (s ++ "." ++ more) = .ok t) :
    ¬d.same t = true := by
  intro hsame
  have hqualified := qualified_eq_of_same (isProper_of_read hd) (isProper_of_read ht) hsame
  rw [(canonical_of_read hd).1, (canonical_of_read ht).1] at hqualified
  have hlength := congrArg String.length hqualified
  simp only [String.length_append] at hlength
  have hdot : ".".length = 1 := rfl
  omega

end DeclaringType

namespace Processor

open DeclaringType

/-- Whether all declaring types have been read from a text, and no name of a field has a dot. -/
def TellsFields (rounds : List Round) : Prop :=
  ∀ r ∈ rounds, ∀ x ∈ r.elements, (∃ s, read s = .ok x.enclosing) ∧ '.' ∉ x.name.toList

variable {σ : Type} {rounds : List Round} {e e' : DeclaringType × FieldSet} {r r' : FieldRecord}

/-- A record is stored under the key of its field in the type that it stands with. -/
lemma key_of_mem_entries (u : Setup) (sink : Sink σ) (world : σ) (h : TellsFields rounds)
    (he : e ∈ (run u sink rounds world).processor.store.entries) (hr : r ∈ e.2.toList) :
    e.1.IsProper ∧ '.' ∉ r.name.toList ∧ r.key = e.1.fieldKey r.name := by
  have hproper : ∀ r ∈ rounds, ∀ x ∈ r.elements, x.enclosing.IsProper := by
    intro r hr x hx
    obtain ⟨s, hs⟩ := (h r hr x hx).1
    exact isProper_of_read hs
  have hstored : e.1 ∈ helpedTypes u.resolver rounds := by
    rw [← types_run u sink rounds world]
    exact List.mem_map_of_mem he
  have howner : e.1.IsProper := isProper_of_mem_helpedTypes hproper e.1 hstored
  obtain ⟨-, hfrom, -⟩ := store_run_eq_grouping u sink rounds world
  obtain ⟨x, hx, d, hsurvives, hsame⟩ := hfrom _ (List.mem_map_of_mem he) r hr
  obtain ⟨rfl, a, -, rfl⟩ := Element.of_survivor? hsurvives
  obtain ⟨round, hround, hx⟩ := List.mem_flatMap.1 hx
  have hname : '.' ∉ x.name.toList := (h round hround x hx).2
  refine ⟨howner, hname, ?_⟩
  -- the element may spell its type otherwise than the store does
  exact (fieldKey_eq_iff (hproper round hround x hx) howner hsame).2 rfl

/-- Records in a store have one key just if they are records of one field. -/
lemma key_eq_key_iff_field (u : Setup) (sink : Sink σ) (world : σ) (h : TellsFields rounds)
    (he : e ∈ (run u sink rounds world).processor.store.entries) (hr : r ∈ e.2.toList)
    (he' : e' ∈ (run u sink rounds world).processor.store.entries) (hr' : r' ∈ e'.2.toList) :
    r.key = r'.key ↔ e = e' ∧ r.name = r'.name := by
  obtain ⟨hproper, hname, hkey⟩ := key_of_mem_entries u sink world h he hr
  obtain ⟨hproper', hname', hkey'⟩ := key_of_mem_entries u sink world h he' hr'
  rw [hkey, hkey', hproper.isGapless.fieldKey_eq_fieldKey_iff hproper'.isGapless hname hname']
  refine and_congr_left' ⟨fun hsame => ?_, fun heq => heq ▸ same_refl e.1⟩
  obtain ⟨htype, hfields⟩ := Store.eq_of_mem_of_same he he' hsame
  exact Prod.ext htype hfields

/-- **Keys are unique to their fields.** For types that have been read and names without a dot, a
key tells the type, however it is spelled, and the name. So a type shares no key with a type in
it. And in a store, whatever rounds have led to it, each record stands under the key of its field,
and two records have one key just if they stand with one type and have one name. -/
theorem keys_unique_to_fields :
    (∀ d t : DeclaringType, (∃ s, read s = .ok d) → (∃ s, read s = .ok t) →
      ∀ m n : String, '.' ∉ m.toList → '.' ∉ n.toList →
        (d.fieldKey m = t.fieldKey n ↔ d.same t = true ∧ m = n)) ∧
    (∀ (outer inner : DeclaringType) (s more : String), read s = .ok outer →
      read (s ++ "." ++ more) = .ok inner → ∀ m n : String, '.' ∉ m.toList → '.' ∉ n.toList →
        outer.fieldKey m ≠ inner.fieldKey n) ∧
    ∀ (σ : Type) (u : Setup) (sink : Sink σ) (world : σ) (rounds : List Round),
      TellsFields rounds →
      let store := (run u sink rounds world).processor.store
      (∀ e ∈ store.entries, ∀ r ∈ e.2.toList, r.key = e.1.fieldKey r.name) ∧
      ∀ e ∈ store.entries, ∀ e' ∈ store.entries, ∀ r ∈ e.2.toList, ∀ r' ∈ e'.2.toList,
        (r.key = r'.key ↔ e = e' ∧ r.name = r'.name) := by
  have hkeys : ∀ d t : DeclaringType, (∃ s, read s = .ok d) → (∃ s, read s = .ok t) →
      ∀ m n : String, '.' ∉ m.toList → '.' ∉ n.toList →
        (d.fieldKey m = t.fieldKey n ↔ d.same t = true ∧ m = n) := by
    rintro d t ⟨s, hs⟩ ⟨s', hs'⟩ m n hm hn
    have hd : d.IsGapless := (isProper_of_read hs).isGapless
    have ht : t.IsGapless := (isProper_of_read hs').isGapless
    exact hd.fieldKey_eq_fieldKey_iff ht hm hn
  refine ⟨hkeys, fun outer inner s more houter hinner m n hm hn heq => ?_,
    fun σ u sink world rounds h => ⟨fun e he r hr => ?_, fun e he e' he' r hr r' hr' => ?_⟩⟩
  · have hsame := ((hkeys outer inner ⟨s, houter⟩ ⟨_, hinner⟩ m n hm hn).1 heq).1
    exact not_same_of_nested houter hinner hsame
  · exact (key_of_mem_entries u sink world h he hr).2.2
  · exact key_eq_key_iff_field u sink world h he hr he' hr'

/-- A class and a class in it have a field of one name. With a dot in its name, a field of the
outer class has the key of a field of the inner one. -/
theorem keys_unique_to_fields_nested :
    let outer : DeclaringType := ⟨"a", "Outer"⟩
    let inner : DeclaringType := ⟨"a", "Outer.Inner"⟩
    let field (d : DeclaringType) (name : String) : Element := ⟨d, name, .named "int", .empty⟩
    let rounds : List Round :=
      [⟨[field outer "x"], false⟩, ⟨[field inner "x", field outer "y"], true⟩]
    let u : Setup := ⟨.default, .constant .int, fun _ _ _ _ _ => pure ()⟩
    let sink : Sink Unit := ⟨fun _ _ => throw ⟨.other, "refused"⟩⟩
    let store := (run u sink rounds ()).processor.store
    (read "a.Outer" = .ok outer ∧ read ("a.Outer" ++ "." ++ "Inner") = .ok inner) ∧
      TellsFields rounds ∧
      store.contents.map (fun e => (e.1, e.2.map FieldRecord.key)) =
        [(outer, ["a.Outer.x", "a.Outer.y"]), (inner, ["a.Outer.Inner.x"])] ∧
      (∀ e ∈ store.entries, ∀ e' ∈ store.entries, ∀ r ∈ e.2.toList, ∀ r' ∈ e'.2.toList,
        (r.key = r'.key ↔ e = e' ∧ r.name = r'.name)) ∧
      (outer.fieldKey "x" ≠ outer.fieldKey "y" ∧ outer.fieldKey "x" ≠ inner.fieldKey "x") ∧
      outer.fieldKey "Inner.x" = inner.fieldKey "x" := by
  intro outer inner field rounds u sink store
  obtain ⟨hkeys, hnested, hstores⟩ := keys_unique_to_fields
  have houter : read "a.Outer" = .ok outer := by decide +kernel
  have hinner : read ("a.Outer" ++ "." ++ "Inner") = .ok inner := by decide +kernel
  have hx : '.' ∉ "x".toList := by decide
  have hy : '.' ∉ "y".toList := by decide
  have htells : TellsFields rounds := by
    intro r hr x hmem
    simp only [rounds, List.mem_cons, List.not_mem_nil, or_false] at hr
    rcases hr with rfl | rfl
    · rw [List.mem_singleton.1 hmem]
      exact ⟨⟨_, houter⟩, hx⟩
    · rcases List.mem_cons.1 hmem with rfl | hmem
      · exact ⟨⟨_, hinner⟩, hx⟩
      · rw [List.mem_singleton.1 hmem]
        exact ⟨⟨_, houter⟩, hy⟩
  have hcontents : store.contents = grouping (survivors u.resolver rounds) :=
    contents_run u sink rounds ()
  have hother : outer.fieldKey "x" ≠ outer.fieldKey "y" := by
    intro heq
    have hname := ((hkeys outer outer ⟨_, houter⟩ ⟨_, houter⟩ "x" "y" hx hy).1 heq).2
    exact absurd hname (by decide)
  refine ⟨⟨houter, hinner⟩, htells, ?_, (hstores Unit u sink () rounds htells).2,
    ⟨hother, hnested outer inner _ _ houter hinner "x" "x" hx hx⟩, by decide +kernel⟩
  rw [hcontents]
  decide +kernel

end Processor

end SavedState
