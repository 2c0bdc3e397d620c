import SavedState.Proofs.RecordTexts
import SavedState.Settings.Json

/-!
Settings in JSON.

Settings are read back from the text that they are written as. From any other object each setting
is what the one member with its name says, or the default where there is none, in whatever order
the members come and whatever else is among them. If the name of a setting comes twice, or with a
value that does not fit, nothing is read.
-/

namespace SavedState

open Json Text.Reader

/-! ### Vocabularies -/

section

variable {α : Type} {word : α → String} {a : α} {l : List α}

lemma lookup_words (w : String) :
    (l.map fun a => (word a, a)).lookup w = l.find? fun a => w == word a := by
  induction l with
  | nil => rfl
  | cons b l ih =>
    rw [List.map_cons, List.lookup_cons, List.find?_cons, ih]

/-- Where no two meanings have the same word, each word that is listed has its meaning. -/
lemma lookup_words_eq_some_iff (hinj : Function.Injective word) (ha : a ∈ l) (w : String) :
    (l.map fun a => (word a, a)).lookup w = some a ↔ w = word a := by
  rw [lookup_words]
  constructor
  · exact fun h => by simpa using List.find?_some h
  · rintro rfl
    cases h : l.find? fun b => word a == word b with
    | none => exact absurd (List.find?_eq_none.1 h a ha) (by simp)
    | some b =>
      have hb : word a = word b := by simpa using List.find?_some h
      rw [hinj hb]

end

lemma ReemitPolicy.word_injective : Function.Injective word := by
  intro p q h
  cases p <;> cases q <;> first | rfl | exact absurd h (by decide)

lemma ReemitPolicy.lookup_eq_some_iff (w : String) (p : ReemitPolicy) :
    vocabulary.entries.lookup w = some p ↔ w = p.word :=
  lookup_words_eq_some_iff word_injective (by cases p <;> decide) w

lemma Severity.word_injective : Function.Injective word := by
  intro s t h
  cases s <;> cases t <;> first | rfl | exact absurd h (by decide)

lemma Severity.lookup_eq_some_iff (w : String) (s : Severity) :
    vocabulary.entries.lookup w = some s ↔ w = s.word :=
  lookup_words_eq_some_iff word_injective (by cases s <;> decide) w

namespace Settings

/-! ### Written settings -/

lemma toList_toText (s : Settings) : (toText s).toList = '\x7b' ::
    ((quote "suffix").toList ++ ':' :: ((quote s.suffix).toList ++ ',' ::
      ((quote "reemit").toList ++ ':' :: ((quote s.reemit.word).toList ++ ',' ::
        ((quote "validation_severity").toList ++ ':' ::
          ((quote s.validationSeverity.word).toList ++ ',' ::
            ((quote "artifact_severity").toList ++ ':' ::
              ((quote s.artifactSeverity.word).toList ++ ['\x7d'])))))))) := by
  rw [toText, toList_writeObject]
  simp [joined]

lemma takes_readWord {α : Type} {entries : List (String × α)} {word : String} {a : α}
    (h : entries.lookup word = some a) (r : List Char) :
    (readWord entries).Takes ((quote word).toList ++ r) a r := by
  have hword := runs_readWord entries word r
  unfold ofWord at hword
  rw [h] at hword
  exact hword

/-- **Settings are read back from their text.** -/
lemma ofText_toText (s : Settings) : ofText (toText s) = .ok s := by
  let fields : Except ReadError Given :=
    (fun t => { format.empty with suffix := some t }) <$> .ok s.suffix >>= fun b =>
      (fun p => { b with reemit := some p }) <$> .ok s.reemit >>= fun b =>
        (fun t => { b with validationSeverity := some t }) <$> .ok s.validationSeverity >>= fun b =>
          (fun t => { b with artifactSeverity := some t }) <$> .ok s.artifactSeverity
  have hfields : .ok s = fields >>= fun b => (format.complete b).mapError .missingField := rfl
  have hreemit := takes_readWord ((ReemitPolicy.lookup_eq_some_iff _ s.reemit).2 rfl)
  have hvalidation := takes_readWord ((Severity.lookup_eq_some_iff _ s.validationSeverity).2 rfl)
  have hartifact := takes_readWord ((Severity.lookup_eq_some_iff _ s.artifactSeverity).2 rfl)
  refine readText_of_runs ?_
  rw [toList_toText, hfields]
  refine Format.runs_read (runs_membersBody (Format.runs_next rfl rfl
    ((takes_readString_quote _ _).runs.map _) fun b hb => ?_))
  obtain ⟨t, -, rfl⟩ := map_eq_ok hb
  refine Format.runs_next rfl rfl ((hreemit _).runs.map _) fun b hb => ?_
  obtain ⟨p, -, rfl⟩ := map_eq_ok hb
  refine Format.runs_next rfl rfl ((hvalidation _).runs.map _) fun b hb => ?_
  obtain ⟨t, -, rfl⟩ := map_eq_ok hb
  exact Format.runs_last rfl rfl ((hartifact _).runs.map _)

end Settings

/-! ### One setting among the members of an object -/

section

variable {α : Type} {key : String} {means : Source → Option α} {chosen c : Option α}
  {entries : List (String × Source)}

/-- The values of the members with the name `key`. -/
def valuesOf (key : String) (entries : List (String × Source)) : List Source :=
  (entries.filter fun e => e.1 == key).map (·.2)

/-- What is chosen by a member if its name is `key`, and what was chosen before it otherwise. Of
two members with the name `key` the second is refused. -/
def pick (key : String) (means : Source → Option α) (chosen : Option α)
    (e : String × Source) : Option (Option α) :=
  if e.1 = key then (if chosen.isSome then none else (means e.2).map some) else some chosen

lemma pick_of_ne {name : String} (h : name ≠ key) (v : Source) :
    pick key means chosen (name, v) = some chosen := if_neg h

lemma pick_key (v : Source) : pick key means chosen (key, v) =
    if chosen.isSome then none else (means v).map some := if_pos rfl

/-- What is chosen by values that come one after another. -/
def Picks (means : Source → Option α) : Option α → List Source → Option α → Prop
  | chosen, [], c => c = chosen
  | none, [v], c => ∃ a, means v = some a ∧ c = some a
  | _, _, _ => False

lemma valuesOf_cons_of_eq {e : String × Source} (h : e.1 = key) :
    valuesOf key (e :: entries) = e.2 :: valuesOf key entries := by
  simp [valuesOf, h]

lemma valuesOf_cons_of_ne {e : String × Source} (h : e.1 ≠ key) :
    valuesOf key (e :: entries) = valuesOf key entries := by
  simp [valuesOf, h]

lemma picks_some {a : α} {values : List Source} :
    Picks means (some a) values c ↔ values = [] ∧ c = some a := by
  cases values <;> simp [Picks]

lemma picks_none_cons {v : Source} {values : List Source} :
    Picks means none (v :: values) c ↔ ∃ a, means v = some a ∧ Picks means (some a) values c := by
  cases values <;> simp [Picks]

lemma foldlM_pick : entries.foldlM (pick key means) chosen = some c ↔
    Picks means chosen (valuesOf key entries) c := by
  induction entries generalizing chosen with
  | nil => cases chosen <;> simp [valuesOf, Picks, eq_comm]
  | cons e entries ih =>
    rw [List.foldlM_cons]
    by_cases he : e.1 = key
    · rw [valuesOf_cons_of_eq he, pick, if_pos he]
      cases chosen with
      | some a => simp [picks_some]
      | none =>
        rw [picks_none_cons, ← exists_congr fun a => and_congr_right fun _ => ih]
        simp [Option.bind_eq_some_iff]
    · rw [valuesOf_cons_of_ne he, pick, if_neg he]
      exact ih

/-- What a setting is, given the values of the members with its name. -/
def Chosen (means : Source → α → Prop) (fallback : α) : List Source → α → Prop
  | [], a => a = fallback
  | [v], a => means v a
  | _, _ => False

/-- Values of which at most one is there, and that one fits. -/
def FitsOnce (means : Source → α → Prop) (values : List Source) : Prop :=
  values.length ≤ 1 ∧ ∀ v ∈ values, ∃ a, means v a

lemma exists_picks_iff {R : Source → α → Prop} (hmeans : ∀ v a, means v = some a ↔ R v a)
    {values : List Source} {fallback a : α} :
    (∃ c, Picks means none values c ∧ c.getD fallback = a) ↔ Chosen R fallback values a := by
  obtain _ | ⟨v, _ | ⟨w, values⟩⟩ := values
  · simp [Picks, Chosen, eq_comm]
  · simp [Picks, Chosen, hmeans]
  · simp [Picks, Chosen]

lemma exists_chosen_iff {R : Source → α → Prop} {values : List Source} {fallback : α} :
    (∃ a, Chosen R fallback values a) ↔ FitsOnce R values := by
  obtain _ | ⟨v, _ | ⟨w, values⟩⟩ := values
  · simp [Chosen, FitsOnce]
  · simp [Chosen, FitsOnce]
  · simp [Chosen, FitsOnce]

end

namespace Json.Source

/-- What a value means as a word of a vocabulary. -/
def meaning? {α : Type} (vocabulary : Vocabulary α) (v : Source) : Option α :=
  v.word?.bind vocabulary.read?

def IsString (v : Source) (text : String) : Prop := v.text? = some text

/-- A value that is the word for `a`. -/
def IsWord {α : Type} (word : α → String) (v : Source) (a : α) : Prop := v.word? = some (word a)

end Json.Source

/-! ### Settings of an object -/

/-- The members of an object by the names that they have. -/
def named (ms : List (List Letter × Source)) : Option (List (String × Source)) :=
  ms.mapM fun m => (decodeString m.1).map fun name => (name, m.2)

lemma foldlM_enter {β : Type} (put : β → String → Source → Option β)
    (ms : List (List Letter × Source)) (b : β) : ms.foldlM (enter put) b =
      (named ms).bind fun entries => entries.foldlM (fun b e => put b e.1 e.2) b := by
  induction ms generalizing b with
  | nil => rfl
  | cons m ms ih =>
    have hnamed : named (m :: ms) = (decodeString m.1).bind fun name =>
        (named ms).map fun entries => (name, m.2) :: entries := by
      unfold named
      rw [List.mapM_cons]
      cases decodeString m.1 with
      | none => rfl
      | some name => cases ms.mapM fun m => (decodeString m.1).map fun name => (name, m.2) <;> rfl
    rw [List.foldlM_cons, hnamed, enter]
    cases decodeString m.1 with
    | none => rfl
    | some name =>
      cases hput : put b name m.2 <;> cases hms : named ms <;> simp [ih, hput, hms]

namespace Settings

/-- The settings that are made of the members of an object: each is what the one member with its
name says, and its default if there is none. -/
structure MadeOf (entries : List (String × Source)) (s : Settings) : Prop where
  suffix : Chosen Source.IsString default.suffix (valuesOf "suffix" entries) s.suffix
  reemit : Chosen (Source.IsWord ReemitPolicy.word) default.reemit (valuesOf "reemit" entries)
    s.reemit
  validationSeverity : Chosen (Source.IsWord Severity.word) default.validationSeverity
    (valuesOf "validation_severity" entries) s.validationSeverity
  artifactSeverity : Chosen (Source.IsWord Severity.word) default.artifactSeverity
    (valuesOf "artifact_severity" entries) s.artifactSeverity

/-- No setting is given twice, and none with a value that does not fit. -/
structure AllFit (entries : List (String × Source)) : Prop where
  suffix : FitsOnce Source.IsString (valuesOf "suffix" entries)
  reemit : FitsOnce (Source.IsWord ReemitPolicy.word) (valuesOf "reemit" entries)
  validationSeverity : FitsOnce (Source.IsWord Severity.word)
    (valuesOf "validation_severity" entries)
  artifactSeverity : FitsOnce (Source.IsWord Severity.word) (valuesOf "artifact_severity" entries)

variable {entries : List (String × Source)}

lemma exists_madeOf_iff : (∃ s, MadeOf entries s) ↔ AllFit entries := by
  constructor
  · rintro ⟨s, hsuffix, hreemit, hvalidation, hartifact⟩
    exact ⟨exists_chosen_iff.1 ⟨_, hsuffix⟩, exists_chosen_iff.1 ⟨_, hreemit⟩,
      exists_chosen_iff.1 ⟨_, hvalidation⟩, exists_chosen_iff.1 ⟨_, hartifact⟩⟩
  · rintro ⟨hsuffix, hreemit, hvalidation, hartifact⟩
    obtain ⟨suffix, hsuffix⟩ := exists_chosen_iff.2 hsuffix
    obtain ⟨reemit, hreemit⟩ := exists_chosen_iff.2 hreemit
    obtain ⟨validation, hvalidation⟩ := exists_chosen_iff.2 hvalidation
    obtain ⟨artifact, hartifact⟩ := exists_chosen_iff.2 hartifact
    exact ⟨⟨suffix, reemit, validation, artifact⟩, hsuffix, hreemit, hvalidation, hartifact⟩

/-! #### Members -/

/-- What has been given behind one more member. -/
def Given.take (g : Given) (name : String) (v : Source) : Option Given :=
  (pick "suffix" Source.text? g.suffix (name, v)).bind fun suffix =>
    (pick "reemit" (Source.meaning? ReemitPolicy.vocabulary) g.reemit (name, v)).bind fun reemit =>
      (pick "validation_severity" (Source.meaning? Severity.vocabulary) g.validationSeverity
        (name, v)).bind fun validation =>
          (pick "artifact_severity" (Source.meaning? Severity.vocabulary) g.artifactSeverity
            (name, v)).map fun artifact => ⟨suffix, reemit, validation, artifact⟩

variable {g : Given} {v : Source}

lemma take_suffix : g.take "suffix" v =
    if g.suffix.isSome then none else v.text?.map fun t => { g with suffix := some t } := by
  simp (disch := decide) only [Given.take, pick_key, pick_of_ne]
  cases g.suffix.isSome <;> cases v.text? <;> rfl

lemma take_reemit : g.take "reemit" v = if g.reemit.isSome then none else
    (v.meaning? ReemitPolicy.vocabulary).map fun p => { g with reemit := some p } := by
  simp (disch := decide) only [Given.take, pick_key, pick_of_ne]
  cases g.reemit.isSome <;> cases v.meaning? ReemitPolicy.vocabulary <;> rfl

lemma take_validationSeverity : g.take "validation_severity" v =
    if g.validationSeverity.isSome then none else
      (v.meaning? Severity.vocabulary).map fun t => { g with validationSeverity := some t } := by
  simp (disch := decide) only [Given.take, pick_key, pick_of_ne]
  cases g.validationSeverity.isSome <;> cases v.meaning? Severity.vocabulary <;> rfl

lemma take_artifactSeverity : g.take "artifact_severity" v =
    if g.artifactSeverity.isSome then none else
      (v.meaning? Severity.vocabulary).map fun t => { g with artifactSeverity := some t } := by
  simp (disch := decide) only [Given.take, pick_key, pick_of_ne]
  cases g.artifactSeverity.isSome <;> cases v.meaning? Severity.vocabulary <;> rfl

lemma gives_meaning {α : Type} {vocabulary : Vocabulary α} {s r : List Char}
    (h : Spells v.tokens s r) :
    (readWord vocabulary.entries).Gives s (v.meaning? vocabulary) r := gives_readWord _ h

/-- **Each member is taken as it is read.** -/
lemma enters_take : Enters format.member Given.take := by
  intro g name v s r h hends
  by_cases hsuffix : name = "suffix"
  · subst hsuffix
    have hread := Format.gives_member (f := format) (b := g) "suffix" rfl h
      fun _ hq => (gives_readString hq).map fun t => { g with suffix := some t }
    rw [take_suffix]
    exact hread
  by_cases hreemit : name = "reemit"
  · subst hreemit
    have hread := Format.gives_member (f := format) (b := g) "reemit" rfl h
      fun _ hq => (gives_meaning hq).map fun p => { g with reemit := some p }
    rw [take_reemit]
    exact hread
  by_cases hvalidation : name = "validation_severity"
  · subst hvalidation
    have hread := Format.gives_member (f := format) (b := g) "validation_severity" rfl h
      fun _ hq => (gives_meaning hq).map fun t => { g with validationSeverity := some t }
    rw [take_validationSeverity]
    exact hread
  by_cases hartifact : name = "artifact_severity"
  · subst hartifact
    have hread := Format.gives_member (f := format) (b := g) "artifact_severity" rfl h
      fun _ hq => (gives_meaning hq).map fun t => { g with artifactSeverity := some t }
    rw [take_artifactSeverity]
    exact hread
  · have hnone : format.fields.find? (fun x => x.name == name) = none := by
      simp [format, Ne.symm hsuffix, Ne.symm hreemit, Ne.symm hvalidation, Ne.symm hartifact]
    have htake : g.take name v = some g := by
      simp only [Given.take, pick_of_ne hsuffix, pick_of_ne hreemit, pick_of_ne hvalidation,
        pick_of_ne hartifact]
      rfl
    rw [htake]
    exact Format.gives_member_other hnone rfl h hends

/-! #### All members -/

/-- **Each setting is taken from the members with its name**, and from no others. -/
lemma foldlM_take {g' : Given} :
    entries.foldlM (fun (g : Given) e => g.take e.1 e.2) g = some g' ↔
      entries.foldlM (pick "suffix" Source.text?) g.suffix = some g'.suffix ∧
      entries.foldlM (pick "reemit" (Source.meaning? ReemitPolicy.vocabulary)) g.reemit =
        some g'.reemit ∧
      entries.foldlM (pick "validation_severity" (Source.meaning? Severity.vocabulary))
        g.validationSeverity = some g'.validationSeverity ∧
      entries.foldlM (pick "artifact_severity" (Source.meaning? Severity.vocabulary))
        g.artifactSeverity = some g'.artifactSeverity := by
  induction entries generalizing g with
  | nil =>
    cases g
    cases g'
    simp [List.foldlM_nil]
  | cons e entries ih =>
    simp only [List.foldlM_cons, Option.bind_eq_bind, Option.bind_eq_some_iff]
    constructor
    · rintro ⟨g₁, htake, hrest⟩
      simp only [Given.take, Option.bind_eq_some_iff, Option.map_eq_some_iff] at htake
      obtain ⟨suffix, hs, reemit, hr, validation, hv, artifact, ha, rfl⟩ := htake
      obtain ⟨hs', hr', hv', ha'⟩ := ih.1 hrest
      exact ⟨⟨suffix, hs, hs'⟩, ⟨reemit, hr, hr'⟩, ⟨validation, hv, hv'⟩, ⟨artifact, ha, ha'⟩⟩
    · rintro ⟨⟨suffix, hs, hs'⟩, ⟨reemit, hr, hr'⟩, ⟨validation, hv, hv'⟩, ⟨artifact, ha, ha'⟩⟩
      refine ⟨⟨suffix, reemit, validation, artifact⟩, ?_, ih.2 ⟨hs', hr', hv', ha'⟩⟩
      simp only [Given.take, Option.bind_eq_some_iff, Option.map_eq_some_iff]
      exact ⟨suffix, hs, reemit, hr, validation, hv, artifact, ha, rfl⟩

lemma meaning?_reemit (v : Source) (p : ReemitPolicy) :
    v.meaning? ReemitPolicy.vocabulary = some p ↔ v.IsWord ReemitPolicy.word p := by
  simp [Source.meaning?, Source.IsWord, Option.bind_eq_some_iff, Vocabulary.read?,
    ReemitPolicy.lookup_eq_some_iff]

lemma meaning?_severity (v : Source) (s : Severity) :
    v.meaning? Severity.vocabulary = some s ↔ v.IsWord Severity.word s := by
  simp [Source.meaning?, Source.IsWord, Option.bind_eq_some_iff, Vocabulary.read?,
    Severity.lookup_eq_some_iff]

lemma take_all_iff {s : Settings} :
    (entries.foldlM (fun (g : Given) e => g.take e.1 e.2) .nothing).map Given.complete = some s ↔
      MadeOf entries s := by
  rw [Option.map_eq_some_iff]
  constructor
  · rintro ⟨g, hg, rfl⟩
    obtain ⟨hs, hr, hv, ha⟩ := foldlM_take.1 hg
    exact ⟨(exists_picks_iff fun _ _ => Iff.rfl).1 ⟨_, foldlM_pick.1 hs, rfl⟩,
      (exists_picks_iff meaning?_reemit).1 ⟨_, foldlM_pick.1 hr, rfl⟩,
      (exists_picks_iff meaning?_severity).1 ⟨_, foldlM_pick.1 hv, rfl⟩,
      (exists_picks_iff meaning?_severity).1 ⟨_, foldlM_pick.1 ha, rfl⟩⟩
  · rintro ⟨hs, hr, hv, ha⟩
    obtain ⟨suffix, hs, hsuffix⟩ := (exists_picks_iff fun _ _ => Iff.rfl).2 hs
    obtain ⟨reemit, hr, hreemit⟩ := (exists_picks_iff meaning?_reemit).2 hr
    obtain ⟨validation, hv, hvalidation⟩ := (exists_picks_iff meaning?_severity).2 hv
    obtain ⟨artifact, ha, hartifact⟩ := (exists_picks_iff meaning?_severity).2 ha
    refine ⟨⟨suffix, reemit, validation, artifact⟩, foldlM_take.2 ⟨foldlM_pick.2 hs,
      foldlM_pick.2 hr, foldlM_pick.2 hv, foldlM_pick.2 ha⟩, ?_⟩
    unfold Given.complete
    rw [hsuffix, hreemit, hvalidation, hartifact]

variable {ms : List (List Letter × Source)} {text : String}

/-- What is read of an object. -/
lemma toOption_ofText (h : (Source.object ms).IsText text) : (ofText text).toOption =
    (named ms).bind fun entries =>
      (entries.foldlM (fun (g : Given) e => g.take e.1 e.2) .nothing).map Given.complete := by
  have hread := readText_of_gives h fun hs => Format.gives_read enters_take hs
  rw [foldlM_enter, Option.bind_assoc] at hread
  simp only [Option.map_eq_bind]
  exact hread

lemma ofText_eq_ok_iff (h : (Source.object ms).IsText text) {s : Settings} :
    ofText text = .ok s ↔ ∃ entries, named ms = some entries ∧ MadeOf entries s := by
  have hsome : ofText text = .ok s ↔ (ofText text).toOption = some s := by
    cases ofText text <;> simp [Except.toOption]
  rw [hsome, toOption_ofText h, Option.bind_eq_some_iff]
  simp only [take_all_iff]

/-- **Settings survive JSON.** Whatever settings are written, they are read back. And of any text
of an object, those settings are read that are the defaults except where a member says otherwise,
if the names of the members are texts, no setting is given twice and each value fits; else the text
is refused. -/
theorem kept_in_json :
    (∀ s : Settings, ofText (toText s) = .ok s) ∧
    ∀ (ms : List (List Letter × Source)) (text : String), (Source.object ms).IsText text →
      (∀ s, ofText text = .ok s ↔ ∃ entries, named ms = some entries ∧ MadeOf entries s) ∧
      ((∃ s, ofText text = .ok s) ↔ ∃ entries, named ms = some entries ∧ AllFit entries) ∧
      ((¬∃ entries, named ms = some entries ∧ AllFit entries) → ∃ e, ofText text = .error e) := by
  refine ⟨ofText_toText, fun ms text h => ?_⟩
  have hread : (∃ s, ofText text = .ok s) ↔
      ∃ entries, named ms = some entries ∧ AllFit entries := by
    simp only [ofText_eq_ok_iff h, ← exists_madeOf_iff]
    exact ⟨fun ⟨s, entries, hn, hs⟩ => ⟨entries, hn, s, hs⟩,
      fun ⟨entries, hn, s, hs⟩ => ⟨s, entries, hn, hs⟩⟩
  refine ⟨fun s => ofText_eq_ok_iff h, hread, fun hnot => ?_⟩
  cases hresult : ofText text with
  | error e => exact ⟨e, rfl⟩
  | ok s => exact absurd (hread.1 ⟨s, hresult⟩) hnot

/-- Characters that stand for themselves. -/
def unescaped (cs : List Char) (h : IsUnescaped cs) : List Letter := cs.pmap Letter.plain h

/-- The name `re\u0065mit`. -/
def reemitLetters : List Letter :=
  unescaped ['r', 'e'] (by decide) ++
    .code [⟨('0', 0), by decide⟩, ⟨('0', 0), by decide⟩, ⟨('6', 6), by decide⟩,
      ⟨('5', 5), by decide⟩] rfl :: unescaped ['m', 'i', 't'] (by decide)

/-- One setting, and a member that is no setting. -/
def partly : List (List Letter × Source) :=
  [(unescaped ['x'] (by decide), .array [.null, .object []]),
    (reemitLetters, .string (unescaped "final-round".toList (by decide)))]

def partlyText : String :=
  "\x7b \"x\":[null , \x7b\x7d],\n\"re\\u0065mit\": \"final-round\"\x7d "

lemma isText_partly : (Source.object partly).IsText partlyText :=
  ⟨[' '], by decide, [], _, by decide, rfl, [' '], _, by decide, rfl, [], _, by decide, rfl,
    [], _, by decide, rfl, [], _, by decide, rfl, [' '], _, by decide, rfl,
    [' '], _, by decide, rfl, [], _, by decide, rfl, [], _, by decide, rfl, [], _, by decide, rfl,
    ['\n'], _, by decide, rfl, [], _, by decide, rfl, [' '], _, by decide, rfl,
    [], _, by decide, rfl, rfl⟩

/-- One setting, given twice. -/
def twice : List (List Letter × Source) :=
  [(reemitLetters, .string (unescaped "skip".toList (by decide))),
    (unescaped "reemit".toList (by decide), .string (unescaped "skip".toList (by decide)))]

def twiceText : String := "\x7b\"re\\u0065mit\":\"skip\",\"reemit\":\"skip\"\x7d"

lemma isText_twice : (Source.object twice).IsText twiceText :=
  ⟨[], by decide, [], _, by decide, rfl, [], _, by decide, rfl, [], _, by decide, rfl,
    [], _, by decide, rfl, [], _, by decide, rfl, [], _, by decide, rfl, [], _, by decide, rfl,
    [], _, by decide, rfl, [], _, by decide, rfl, rfl⟩

theorem kept_in_json_partly :
    (Source.object partly).IsText partlyText ∧
      ofText partlyText = .ok ⟨"$$Icicle", .finalRound, .error, .error⟩ ∧
    (Source.object twice).IsText twiceText ∧ ∃ e, ofText twiceText = .error e := by
  refine ⟨isText_partly, ((kept_in_json.2 _ _ isText_partly).1 _).2 ⟨_, rfl, rfl, rfl, rfl, rfl⟩,
    isText_twice, (kept_in_json.2 _ _ isText_twice).2.2 ?_⟩
  rintro ⟨entries, hnamed, hfit⟩
  cases hnamed
  exact absurd hfit.reemit.1 (by decide)

end Settings

end SavedState
