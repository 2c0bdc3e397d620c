import SavedState.Fixture
import SavedState.Proofs.Conversion
import SavedState.Proofs.WrittenValues

/-!
Rounds of fixtures.

Fixtures are built into a round, or written as a manifest whose text is read and converted. Either
way there is a round for the same fixtures, and it is the same round.
-/

namespace SavedState

open Json Text.Reader

namespace Manifest

/-! ### A written manifest, read -/

/-- What the name of a declaring type is read as. -/
def declare (text : String) : Except ReadError DeclaringType :=
  (DeclaringType.read text).mapError fun e => .unfit e.message

lemma runs_readDeclaring (text : String) (r : List Char) :
    readDeclaring.Runs ((quote text).toList ++ r) (declare text) r := by
  refine (takes_readString_quote text r).bind_runs ?_
  unfold declare
  cases DeclaringType.read text with
  | ok d => exact takes_pure d r
  | error e => rfl

/-- What the words of a list of modifiers are read as. -/
def readKeywords (words : List String) : Except ReadError Modifiers :=
  .ofList <$> words.mapM (ofWord Modifier.vocabulary.entries)

lemma runs_readModifiers (words : List String) (r : List Char) :
    readModifiers.Runs ((Fixture.names words).write.toList ++ r) (readKeywords words) r := by
  have hlist : (readList (readWord Modifier.vocabulary.entries)).Runs
      ('[' :: (joined (words.map fun w => (quote w).toList) ++ ']' :: r))
      (words.mapM (ofWord Modifier.vocabulary.entries)) r :=
    runs_readList (fun w _ => ⟨startsItem_quote w, runs_readWord Modifier.vocabulary.entries w⟩) r
  have htext : (Fixture.names words).write.toList ++ r =
      '[' :: (joined (words.map fun w => (quote w).toList) ++ ']' :: r) := by
    rw [Fixture.names, Value.write, toList_writeArray, writeAll_eq, List.map_map, List.map_map]
    simp [Function.comp_def, Value.write]
  rw [htext]
  exact hlist.map _

/-- What the entry of a fixture is read as. -/
def entryOf (f : Fixture) : Except ReadError ManifestEntry := do
  let enclosing ← declare f.enclosing
  let modifiers ← readKeywords f.modifiers
  return ⟨enclosing, f.name, f.type, modifiers⟩

lemma toList_entry (f : Fixture) (r : List Char) : f.entry.write.toList ++ r = '\x7b' ::
    ((quote "enclosing").toList ++ ':' :: ((quote f.enclosing).toList ++ ',' ::
      ((quote "modifiers").toList ++ ':' :: ((Fixture.names f.modifiers).write.toList ++ ',' ::
        ((quote "name").toList ++ ':' :: ((quote f.name).toList ++ ',' ::
          ((quote "type").toList ++ ':' :: ((quote f.type).toList ++ '\x7d' :: r)))))))) := by
  rw [Fixture.entry, Value.write, toList_writeObject, writeMembers_eq]
  simp [joined, Value.write]

lemma runs_readEntry (f : Fixture) (r : List Char) :
    readEntry.Runs (f.entry.write.toList ++ r) (entryOf f) r := by
  -- the members come in the order of their names
  let fields : Except ReadError EntryFields :=
    (fun d => { entryFormat.empty with enclosing := some d }) <$> declare f.enclosing >>= fun b =>
      (fun ms => { b with modifiers := some ms }) <$> readKeywords f.modifiers >>= fun b =>
        (fun n => { b with name := some n }) <$> .ok f.name >>= fun b =>
          (fun t => { b with type := some t }) <$> .ok f.type
  have hcomplete : entryOf f = fields >>= fun b =>
      (entryFormat.complete b).mapError .missingField := by
    simp only [fields, entryOf]
    cases declare f.enclosing with
    | error e => rfl
    | ok d => cases readKeywords f.modifiers <;> rfl
  rw [toList_entry, hcomplete]
  refine Format.runs_read (runs_membersBody (Format.runs_next rfl rfl
    ((runs_readDeclaring _ _).map _) fun b hb => ?_))
  obtain ⟨d, -, rfl⟩ := map_eq_ok hb
  refine Format.runs_next rfl rfl ((runs_readModifiers _ _).map _) fun b hb => ?_
  obtain ⟨ms, -, rfl⟩ := map_eq_ok hb
  refine Format.runs_next rfl rfl ((takes_readString_quote _ _).runs.map _) fun b hb => ?_
  obtain ⟨n, -, rfl⟩ := map_eq_ok hb
  exact Format.runs_last rfl rfl ((takes_readString_quote _ _).runs.map _)

/-- The text of a list of fixtures without a hierarchy. -/
def written (fs : List Fixture) : String := (Fixture.manifest [] fs).write

lemma startsItem_entry (f : Fixture) : StartsItem f.entry.write.toList := by
  have htext := toList_entry f []
  rw [List.append_nil] at htext
  exact ⟨'\x7b', _, htext, by decide, by decide⟩

lemma toList_written (fs : List Fixture) : (written fs).toList = '\x7b' ::
    ((quote "elements").toList ++ ':' ::
      ('[' :: (joined (fs.map fun f => f.entry.write.toList) ++ [']']) ++ ',' ::
        ((quote "hierarchy").toList ++ ':' :: ['\x7b', '\x7d', '\x7d']))) := by
  rw [written, Fixture.manifest, Value.write, toList_writeObject, writeMembers_eq]
  simp [joined, Value.write, toList_writeArray, toList_writeObject, Function.comp_def]

/-- **A written manifest is read entry by entry**, and the first one that cannot be read tells what
is wrong. -/
lemma ofText_written (fs : List Fixture) :
    ofText (written fs) = (fun es => ⟨.empty, es⟩) <$> fs.mapM entryOf := by
  let fields : Except ReadError Fields :=
    (fun es => { format.empty with entries := some es }) <$> fs.mapM entryOf >>= fun b =>
      (fun h => { b with hierarchy := some h }) <$> .ok .empty
  have hcomplete : (fun es => Manifest.mk .empty es) <$> fs.mapM entryOf = fields >>= fun b =>
      (format.complete b).mapError .missingField := by
    simp only [fields]
    cases fs.mapM entryOf <;> rfl
  have hlist : ∀ r, (readList readEntry).Runs ('[' :: (joined (fs.map fun f =>
      f.entry.write.toList) ++ [']']) ++ r) (fs.mapM entryOf) r := by
    intro r
    rw [List.cons_append, List.append_assoc, List.singleton_append]
    exact runs_readList (fun f _ => ⟨startsItem_entry f, runs_readEntry f⟩) r
  refine readText_of_runs ?_
  rw [hcomplete, toList_written]
  refine Format.runs_read (runs_membersBody (Format.runs_next rfl rfl ((hlist _).map _)
    fun b hb => ?_))
  obtain ⟨es, -, rfl⟩ := map_eq_ok hb
  exact Format.runs_last rfl rfl ((takes_readMap _ _ _ _).runs.map _)

/-- An entry is read just if its declaring type and all its modifiers are. -/
lemma entryOf_eq_ok_iff {f : Fixture} {e : ManifestEntry} : entryOf f = .ok e ↔
    ∃ d ms, DeclaringType.read f.enclosing = .ok d ∧
      f.modifiers.mapM (ofWord Modifier.vocabulary.entries) = .ok ms ∧
      e = ⟨d, f.name, f.type, .ofList ms⟩ := by
  constructor
  · intro h
    obtain ⟨d, hd, h⟩ := bind_eq_ok h
    obtain ⟨modifiers, hmodifiers, h⟩ := bind_eq_ok h
    obtain ⟨ms, hms, rfl⟩ := map_eq_ok hmodifiers
    exact ⟨d, ms, mapError_eq_ok hd, hms, (Except.ok.inj h).symm⟩
  · rintro ⟨d, ms, hd, hms, rfl⟩
    unfold entryOf declare readKeywords
    rw [hd, hms]
    rfl

end Manifest

/-! ### A round, built -/

namespace Fixture

open Manifest

lemma readModifier_eq_ok_iff {word : String} {m : Modifier} :
    readModifier word = .ok m ↔ ofWord Modifier.vocabulary.entries word = .ok m := by
  unfold readModifier ofWord Vocabulary.read?
  cases Modifier.vocabulary.entries.lookup word <;> simp

lemma build_eq_ok_iff {f : Fixture} {x : Element} : f.build = .ok x ↔
    ∃ d t ms, DeclaringType.read f.enclosing = .ok d ∧ FieldType.read f.type = .ok t ∧
      f.modifiers.mapM (ofWord Modifier.vocabulary.entries) = .ok ms ∧
      x = ⟨d, f.name, { t with supertypes := t.supertypes.insertAll f.supertypes },
        .ofList ms⟩ := by
  have hwords : ∀ ms, f.modifiers.mapM readModifier = .ok ms ↔
      f.modifiers.mapM (ofWord Modifier.vocabulary.entries) = .ok ms := by
    intro ms
    simp only [mapM_eq_ok_iff, readModifier_eq_ok_iff]
  constructor
  · intro h
    obtain ⟨d, hd, h⟩ := bind_eq_ok h
    obtain ⟨t, ht, h⟩ := bind_eq_ok h
    obtain ⟨ms, hms, h⟩ := bind_eq_ok h
    exact ⟨d, t, ms, mapError_eq_ok hd, mapError_eq_ok ht, (hwords ms).1 hms,
      (Except.ok.inj h).symm⟩
  · rintro ⟨d, t, ms, hd, ht, hms, rfl⟩
    unfold build
    rw [hd, ht, (hwords ms).2 hms]
    rfl

lemma round_eq_ok_iff {fs : List Fixture} {isFinal : Bool} {r : Round} :
    round fs isFinal = .ok r ↔ r.isFinal = isFinal ∧
      List.Forall₂ (fun f x => f.build = .ok x) fs r.elements := by
  constructor
  · intro h
    obtain ⟨elements, hl, h⟩ := bind_eq_ok h
    cases h
    exact ⟨rfl, mapM_eq_ok_iff.1 hl⟩
  · rintro ⟨rfl, h⟩
    unfold round
    rw [mapM_eq_ok_iff.2 h]
    rfl

/-- A fixture whose class has no supertypes of its own. -/
def plain (f : Fixture) : Fixture := { f with supertypes := [] }

/-- The entry of a fixture becomes the element that the fixture is built into. -/
lemma build_plain_eq_ok_iff {f : Fixture} {x : Element} : f.plain.build = .ok x ↔
    ∃ e, entryOf f = .ok e ∧ e.toElement Hierarchy.empty.closed = .ok x := by
  have hparents : ∀ n, Hierarchy.empty.closed.parents n = [] := fun n =>
    List.eq_nil_iff_forall_not_mem.2 fun a => Hierarchy.not_mem_parents_closed rfl
  simp only [build_eq_ok_iff, entryOf_eq_ok_iff, ManifestEntry.toElement_eq_ok_iff]
  constructor
  · rintro ⟨d, t, ms, hd, ht, hms, rfl⟩
    refine ⟨_, ⟨d, ms, hd, hms, rfl⟩, t, ht, ?_⟩
    rw [FieldType.inherit_of_no_parents hparents]
    cases t
    rfl
  · rintro ⟨_, ⟨d, ms, hd, hms, rfl⟩, t, ht, rfl⟩
    refine ⟨d, t, ms, hd, ht, hms, ?_⟩
    rw [FieldType.inherit_of_no_parents hparents]
    cases t
    rfl

/-- **A round that is built is the round that is read.** Fixtures of any texts are built into a
round just if the manifest that they are written as can be read and converted, and it is the same
round. -/
theorem round_iff_written (fs : List Fixture) (isFinal : Bool) (path : String) (r : Round) :
    round (fs.map plain) isFinal = .ok r ↔
      ∃ m, ofText (manifest [] fs).write = .ok m ∧ m.convert path isFinal = .ok r := by
  have hread : ∀ m, ofText (manifest [] fs).write = .ok m ↔
      ∃ es, List.Forall₂ (fun f e => entryOf f = .ok e) fs es ∧ m = ⟨.empty, es⟩ := by
    intro m
    change ofText (written fs) = .ok m ↔ _
    rw [ofText_written]
    constructor
    · intro h
      obtain ⟨es, hes, rfl⟩ := map_eq_ok h
      exact ⟨es, mapM_eq_ok_iff.1 hes, rfl⟩
    · rintro ⟨es, hes, rfl⟩
      rw [mapM_eq_ok_iff.2 hes]
      rfl
  rw [round_eq_ok_iff, List.forall₂_map_left_iff]
  simp only [build_plain_eq_ok_iff, forall₂_exists, hread, convert_eq_ok_iff, toRound_eq_ok_iff]
  constructor
  · rintro ⟨hfinal, es, hentries, helements⟩
    exact ⟨⟨.empty, es⟩, ⟨es, hentries, rfl⟩, hfinal, helements⟩
  · rintro ⟨_, ⟨es, hentries, rfl⟩, hfinal, helements⟩
    exact ⟨hfinal, es, hentries, helements⟩

/-- A name with a quote, a line feed, a control character and a letter of two bytes comes back. A
keyword with a capital is refused on either way. -/
theorem round_iff_written_escapes :
    let f : Fixture := ⟨"a.Foo", "x\"\n\x01é", "java.util.List<? extends int[]>",
      ["private", "final"], ["a.Bar"]⟩
    let x : Element := ⟨⟨"a", "Foo"⟩, "x\"\n\x01é", ⟨"java.util.List", [⟨"int", [], 1, .empty⟩], 0,
      .empty⟩, .ofList [.private, .final]⟩
    let capital : Fixture := { f with modifiers := ["Private"] }
    (quote f.name = "\"x\\\"\\n\\u0001é\"" ∧ round [f.plain] true = .ok ⟨[x], true⟩) ∧
      (∃ m, ofText (manifest [] [f]).write = .ok m ∧
        m.convert "m.json" true = .ok ⟨[x], true⟩) ∧
      ¬∃ m r, ofText (manifest [] [capital]).write = .ok m ∧ m.convert "m.json" true = .ok r := by
  intro f x capital
  have hquote : quote f.name = "\"x\\\"\\n\\u0001é\"" := by decide +kernel
  have hround : round [f.plain] true = .ok ⟨[x], true⟩ := by decide +kernel
  have hcapital : round [capital.plain] true = .error (.modifier "Private") := by decide +kernel
  clear_value f x capital
  refine ⟨⟨hquote, hround⟩, (round_iff_written [f] true "m.json" _).1 hround, ?_⟩
  rintro ⟨m, r, hm, hr⟩
  have hok := (round_iff_written [capital] true "m.json" r).2 ⟨m, hm, hr⟩
  cases hcapital.symm.trans hok

end Fixture

end SavedState
