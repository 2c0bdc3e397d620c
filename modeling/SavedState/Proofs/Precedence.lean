import Mathlib.Data.List.Induction
import SavedState.Proofs.DistinctKeys
import SavedState.Proofs.Overlays

/-!
Which layer a setting comes from. Each of the six settings of a run has the value of the highest
layer that says something of it, whatever the layers say of the others, and only the values that
come out on top have to fit.
-/

namespace SavedState

/-! ### The layer of the environment -/

namespace Layer.Environment

open Value

/-- What a variable says of the setting at the end of a path. -/
def says? (path : List String) (e : String × String) : Option Value :=
  (path? e.1).bind fun q =>
    if path <+: q then some (nest (ofText e.2) (q.drop path.length)) else none

/-- The value that the variables of a process give the setting at the end of a path: that of the
last one which says something of it. -/
def value? (environment : List (String × String)) (path : List String) : Option Value :=
  (environment.filterMap (says? path)).getLast?

lemma value?_concat (environment : List (String × String)) (e : String × String)
    (path : List String) :
    value? (environment ++ [e]) path = (says? path e).or (value? environment path) := by
  unfold value?
  rw [List.filterMap_append, List.getLast?_append]
  cases hs : says? path e <;> simp [hs]

lemma path?_ne_nil (name : String) : path? name ≠ some [] := by
  intro h
  unfold path? at h
  dsimp only at h
  split at h
  · split at h
    · cases h
    · have hparts := List.map_eq_nil_iff.1 (Option.some.inj h)
      exact Text.parts_ne_nil _ _ hparts
  · cases h

variable {path : List String}

/-- One more variable, over those before. -/
lemma offers_of_variable {t : Table} {said : Option Value} (h : (Value.table t).Offers path said)
    (hne : path ≠ []) {e : String × String}
    (hpath : ∀ q, path? e.1 = some q → q <+: path → q = path) :
    (Value.table (layOver t e)).Offers path ((says? path e).or said) := by
  unfold layOver says?
  cases hq : path? e.1 with
  | none => exact h
  | some q =>
    cases q with
    | nil => exact absurd (hpath [] hq List.nil_prefix).symm hne
    | cons key q =>
      have hnest := nest_offers (ofText e.2) (hpath _ hq)
      have hcover := h.cover hnest
      rw [nest, cover] at hcover
      exact hcover

lemma toLayer_offers {environment : List (String × String)} (hne : path ≠ [])
    (hpath : ∀ e ∈ environment, ∀ q, path? e.1 = some q → q <+: path → q = path) :
    (Value.table (toLayer environment)).Offers path (value? environment path) := by
  induction environment using List.reverseRecOn with
  | nil =>
    obtain ⟨key, path, rfl⟩ := List.exists_cons_of_ne_nil hne
    exact ⟨⟨[], rfl, List.nodup_nil, fun w hw => nomatch hw⟩, .none⟩
  | append_singleton environment e ih =>
    have hbefore := ih fun x hx => hpath x (List.mem_append_left _ hx)
    rw [value?_concat, toLayer, List.foldl_concat]
    exact offers_of_variable hbefore hne (hpath e (List.mem_append_right _ List.mem_cons_self))

end Layer.Environment

/-! ### The settings of a run -/

inductive Setting where
  | outDir
  | dryRun
  | suffix
  | reemit
  | validationSeverity
  | artifactSeverity
deriving DecidableEq, Repr

namespace Setting

open Layer Layer.Value

/-- Where a layer has the value of a setting. -/
def path : Setting → List String
  | outDir => ["out_dir"]
  | dryRun => ["dry_run"]
  | suffix => ["processor", "suffix"]
  | reemit => ["processor", "reemit"]
  | validationSeverity => ["processor", "validation_severity"]
  | artifactSeverity => ["processor", "artifact_severity"]

/-- The value of a setting that no layer says anything of. -/
def byDefault : Setting → Value
  | outDir => .text "generated"
  | dryRun => .flag false
  | suffix => .text "$$Icicle"
  | reemit => .text "skip"
  | validationSeverity => .text "error"
  | artifactSeverity => .text "error"

/-- What the command line says of a setting. -/
def onCommandLine? (a : Arguments) : Setting → Option Value
  | outDir => a.outDir.map .text
  | dryRun => if a.dryRun then some (.flag true) else none
  | suffix => a.suffix.map .text
  | reemit => a.reemit.map fun p => .text p.word
  | validationSeverity => none
  | artifactSeverity => none

/-- The value that a setting has in the end, with a layer from the settings file. -/
def winning (file : Table) (environment : List (String × String)) (a : Arguments) (x : Setting) :
    Value :=
  ((x.onCommandLine? a).or ((Environment.value? environment x.path).or
    ((Value.table file).at? x.path))).getD x.byDefault

/-- Whether a configuration has for a setting what a value says. -/
def IsSaid (x : Setting) (v : Value) (c : Configuration) : Prop :=
  match x with
  | outDir => v.asText? = some c.outDir
  | dryRun => v.asFlag? = some c.isDryRun
  | suffix => v.asText? = some c.processor.suffix
  | reemit => v.asWord? ReemitPolicy.vocabulary = some c.processor.reemit
  | validationSeverity => v.asWord? Severity.vocabulary = some c.processor.validationSeverity
  | artifactSeverity => v.asWord? Severity.vocabulary = some c.processor.artifactSeverity

instance (x : Setting) (v : Value) (c : Configuration) : Decidable (x.IsSaid v c) :=
  match x with
  | outDir => inferInstanceAs (Decidable (v.asText? = some c.outDir))
  | dryRun => inferInstanceAs (Decidable (v.asFlag? = some c.isDryRun))
  | suffix => inferInstanceAs (Decidable (v.asText? = some c.processor.suffix))
  | reemit => inferInstanceAs (Decidable (v.asWord? _ = some c.processor.reemit))
  | validationSeverity =>
    inferInstanceAs (Decidable (v.asWord? _ = some c.processor.validationSeverity))
  | artifactSeverity =>
    inferInstanceAs (Decidable (v.asWord? _ = some c.processor.artifactSeverity))

/-- Whether a value can be that of a setting. -/
def Fits (x : Setting) (v : Value) : Prop := ∃ c, x.IsSaid v c

lemma path_ne_nil (x : Setting) : x.path ≠ [] := by cases x <;> simp [path]

lemma default_offers (x : Setting) :
    (Value.table Configuration.default.toLayer).Offers x.path (some x.byDefault) := by
  have hpasses : (Value.table Configuration.default.toLayer).Passes x.path := by
    cases x
    case outDir | dryRun => exact ⟨_, rfl, by decide, fun w hw => trivial⟩
    all_goals
      refine ⟨_, rfl, by decide, fun w hw => ?_⟩
      cases hw
      exact ⟨_, rfl, by decide, fun w hw => trivial⟩
  have hvalue : (Value.table Configuration.default.toLayer).at? x.path = some x.byDefault := by
    cases x <;> rfl
  exact hvalue ▸ offers_self hpasses

/-- The settings of the processor that the command line gives. -/
def processorOptions (a : Arguments) : Table :=
  (a.suffix.map fun s => ("suffix", .text s)).toList ++
    (a.reemit.map fun p => ("reemit", .text p.word)).toList

lemma lookup_overrides_processor (a : Arguments) :
    (Configuration.overrides a).lookup "processor" =
      if (processorOptions a).isEmpty then none else some (.table (processorOptions a)) := by
  unfold Configuration.overrides processorOptions
  obtain ⟨-, outDir, suffix, reemit, dryRun, -, -⟩ := a
  cases outDir <;> cases suffix <;> cases reemit <;> cases dryRun <;> rfl

lemma passes_overrides (a : Arguments) (x : Setting) :
    (Value.table (Configuration.overrides a)).Passes x.path := by
  have hkeys : ((Configuration.overrides a).map (·.1)).Nodup := by
    unfold Configuration.overrides
    obtain ⟨-, outDir, suffix, reemit, dryRun, -, -⟩ := a
    cases outDir <;> cases suffix <;> cases reemit <;> cases dryRun <;> simp
  have hoptions : ((processorOptions a).map (·.1)).Nodup := by
    unfold processorOptions
    cases a.suffix <;> cases a.reemit <;> simp
  cases x
  case outDir | dryRun => exact ⟨_, rfl, hkeys, fun w hw => trivial⟩
  all_goals
    refine ⟨_, rfl, hkeys, fun w hw => ?_⟩
    rw [lookup_overrides_processor] at hw
    split at hw
    · cases hw
    · cases hw
      exact ⟨_, rfl, hoptions, fun w hw => trivial⟩

lemma overrides_offers (a : Arguments) (x : Setting) :
    (Value.table (Configuration.overrides a)).Offers x.path (x.onCommandLine? a) := by
  have hvalue : (Value.table (Configuration.overrides a)).at? x.path = x.onCommandLine? a := by
    obtain ⟨-, outDir, suffix, reemit, dryRun, -, -⟩ := a
    cases outDir <;> cases suffix <;> cases reemit <;> cases dryRun <;> cases x <;> rfl
  exact hvalue ▸ offers_self (passes_overrides a x)

/-- What all layers together say of a setting is its winning value. -/
lemma offers_winning {file : Table} {environment : List (String × String)} (a : Arguments)
    {x : Setting} (hfile : (Value.table file).Passes x.path)
    (henvironment : ∀ e ∈ environment, Environment.path? e.1 ≠ some ["processor"]) :
    (Value.table (coverAll (coverAll (coverAll Configuration.default.toLayer file)
      (Environment.toLayer environment)) (Configuration.overrides a))).Offers x.path
        (some (x.winning file environment a)) := by
  have hpath : ∀ e ∈ environment, ∀ q, Environment.path? e.1 = some q → q <+: x.path →
      q = x.path := by
    intro e he q hq hprefix
    have hnil : q ≠ [] := fun h => Environment.path?_ne_nil e.1 (h ▸ hq)
    have hprocessor : q ≠ ["processor"] := fun h => henvironment e he (h ▸ hq)
    cases x
    all_goals
      simp only [path, List.prefix_cons_iff, List.prefix_nil] at hprefix
      grind [path]
  have henv := Environment.toLayer_offers x.path_ne_nil hpath
  have hbelow := (x.default_offers.cover (offers_self hfile)).cover henv
  have hall := hbelow.cover (overrides_offers a x)
  simp only [cover] at hall
  rw [← Option.or_assoc, ← Option.or_assoc, Option.or_some, Option.or_assoc] at hall
  exact hall

end Setting

namespace Configuration

open Layer Layer.Value

variable {m : Table} {key : String}

lemma readOr_eq_of_offers {w : Value} (h : (Value.table m).Offers [key] (some w)) {α : Type}
    (default : α) {read : Value → Option α} (hread : ∀ t, read (.table t) = none) :
    readOr default read (m.lookup key) = read w := by
  have halike := h.alike
  rw [at?] at halike
  cases hv : m.lookup key with
  | none =>
    rw [hv] at halike
    cases halike
  | some v =>
    rw [hv] at halike
    cases halike with
    | some halike => exact halike.read_eq hread

lemma exists_table_of_offers {key' : String} {w : Value}
    (h : (Value.table m).Offers [key, key'] (some w)) :
    ∃ es, m.lookup key = some (.table es) := by
  have halike := h.alike
  rw [at?] at halike
  cases hv : m.lookup key with
  | none =>
    rw [hv] at halike
    cases halike
  | some v =>
    cases v with
    | table es => exact ⟨es, rfl⟩
    | _ =>
      rw [hv] at halike
      cases halike

lemma offers_of_table {path : List String} {es : Table} {said : Option Value}
    (h : (Value.table m).Offers (key :: path) said) (hes : m.lookup key = some (.table es)) :
    (Value.table es).Offers path said := by
  obtain ⟨hpasses, halike⟩ := h
  obtain ⟨t, ht, -, hinner⟩ := hpasses
  cases ht
  rw [at?, hes] at halike
  exact ⟨hinner _ hes, halike⟩

/-- A configuration is read off a layer setting by setting. -/
lemma ofLayer?_eq_some_iff {w : Setting → Value}
    (h : ∀ x, (Value.table m).Offers x.path (some (w x))) {c : Configuration} :
    ofLayer? m = some c ↔ ∀ x : Setting, x.IsSaid (w x) c := by
  obtain ⟨es, hes⟩ := exists_table_of_offers (h .suffix)
  have hprocessor : ∀ {key w}, (Value.table m).Offers ["processor", key] (some w) →
      (Value.table es).Offers [key] (some w) := fun h => offers_of_table h hes
  unfold ofLayer?
  rw [readOr_eq_of_offers (h .outDir) _ fun _ => rfl,
    readOr_eq_of_offers (h .dryRun) _ fun _ => rfl, hes]
  unfold readOr Settings.ofLayer? Settings.ofEntries?
  dsimp only
  rw [readOr_eq_of_offers (hprocessor (h .suffix)) _ fun _ => rfl,
    readOr_eq_of_offers (hprocessor (h .reemit)) _ fun _ => rfl,
    readOr_eq_of_offers (hprocessor (h .validationSeverity)) _ fun _ => rfl,
    readOr_eq_of_offers (hprocessor (h .artifactSeverity)) _ fun _ => rfl]
  simp only [Option.bind_eq_bind, Option.bind_eq_some_iff, Option.pure_def, Option.some.injEq]
  constructor
  · rintro ⟨outDir, houtDir, isDryRun, hdryRun, processor,
      ⟨suffix, hsuffix, reemit, hreemit, validation, hvalidation, artifact, hartifact, rfl⟩, rfl⟩ x
    cases x <;> assumption
  · intro hall
    exact ⟨_, hall .outDir, _, hall .dryRun, _, ⟨_, hall .suffix, _, hall .reemit, _,
      hall .validationSeverity, _, hall .artifactSeverity, rfl⟩, rfl⟩

/-- The layer of a settings file has no key twice on the way to any setting. -/
lemma passes_of_fileLayer? {file : Option (List UInt8)} {layer : Table}
    (h : fileLayer? file = some layer)
    (hprocessor : ∀ v, layer.lookup "processor" = some v → ∃ t, v = .table t) (x : Setting) :
    (Value.table layer).Passes x.path := by
  have hnodup : (layer.map (·.1)).Nodup ∧ ∀ key t, layer.lookup key = some (.table t) →
      (t.map (·.1)).Nodup := by
    unfold fileLayer? at h
    cases file with
    | none =>
      cases h
      exact ⟨List.nodup_nil, fun key t ht => nomatch ht⟩
    | some bytes =>
      obtain ⟨text, -, htext⟩ := Option.bind_eq_some_iff.1 h
      exact Toml.nodup_of_read? htext
  cases x
  case outDir | dryRun => exact ⟨_, rfl, hnodup.1, fun w hw => trivial⟩
  all_goals
    refine ⟨_, rfl, hnodup.1, fun w hw => ?_⟩
    obtain ⟨t, rfl⟩ := hprocessor w hw
    exact ⟨t, rfl, hnodup.2 _ t hw, fun w hw => trivial⟩

variable {host : Host} {a : Arguments} {file : Option (List UInt8)} {layer : Table}

/-- **Each setting comes from the highest layer that says something of it.** The command line is
above the environment, that is above the settings file, and the defaults are below them all. A
configuration is loaded just if it has for each setting what its winning value says, and nothing
can be loaded just if a winning value does not fit; what is hidden does no harm. -/
theorem load_setting_by_setting (hfile : file? host a = .ok file)
    (hlayer : fileLayer? file = some layer)
    (hprocessor : ∀ v, layer.lookup "processor" = some v → ∃ t, v = .table t)
    (henvironment : ∀ e ∈ host.environment, Environment.path? e.1 ≠ some ["processor"]) :
    (∀ c, load host a = .ok c ↔ ∀ x : Setting, x.IsSaid (x.winning layer host.environment a) c) ∧
      ((∃ e, load host a = .error e) ↔
        ∃ x : Setting, ¬x.Fits (x.winning layer host.environment a)) := by
  have hok : ∀ c, load host a = .ok c ↔
      ∀ x : Setting, x.IsSaid (x.winning layer host.environment a) c := by
    intro c
    have hoffers := fun x =>
      Setting.offers_winning a (passes_of_fileLayer? hlayer hprocessor x) henvironment
    rw [← ofLayer?_eq_some_iff hoffers, load_eq_ok]
    constructor
    · rintro ⟨file', layer', hfile', hlayer', hc⟩
      rw [hfile] at hfile'
      cases hfile'
      rw [hlayer] at hlayer'
      cases hlayer'
      exact hc
    · exact fun hc => ⟨file, layer, hfile, hlayer, hc⟩
  refine ⟨hok, ?_⟩
  constructor
  · rintro ⟨e, he⟩
    by_contra hall
    push Not at hall
    choose c hc using hall
    -- each setting is said by some configuration, and one has them all
    have hload := (hok ⟨(c .outDir).outDir, (c .dryRun).isDryRun, (c .suffix).processor.suffix,
      (c .reemit).processor.reemit, (c .validationSeverity).processor.validationSeverity,
      (c .artifactSeverity).processor.artifactSeverity⟩).2 fun x => by
        cases x
        exacts [hc .outDir, hc .dryRun, hc .suffix, hc .reemit, hc .validationSeverity,
          hc .artifactSeverity]
    rw [he] at hload
    cases hload
  · rintro ⟨x, hx⟩
    cases hload : load host a with
    | error e => exact ⟨e, rfl⟩
    | ok c => exact absurd ⟨c, (hok c).1 hload x⟩ hx

/-- A bad flag in the file is hidden by the command line, a bad policy by the environment, and a
bad directory by a later variable; once the variables are gone, the policy comes to light. -/
theorem load_setting_by_setting_hidden_values :
    let text := "dry_run = 1\n[processor]\nsuffix = \"$File\"\nreemit = \"never\""
    let a : Arguments := { Arguments.none with dryRun := true, manifests := ["m"] }
    let bare : Host := ⟨[(["icicle.toml"], .file (Text.bytes text))], [], [], .willing⟩
    let host : Host := { bare with
      environment := [("ICICLE_OUT_DIR__X", "1"), ("Icicle_Processor__Reemit", "attempt"),
        ("ICICLE_OUT_DIR", "out")] }
    ∃ layer, file? host a = .ok (some (Text.bytes text)) ∧
      fileLayer? (some (Text.bytes text)) = some layer ∧
      (∀ v, layer.lookup "processor" = some v → ∃ t, v = .table t) ∧
      (∀ e ∈ host.environment, Environment.path? e.1 ≠ some ["processor"]) ∧
      load host a = .ok ⟨"out", true, ⟨"$File", .attempt, .error, .error⟩⟩ ∧
      ∃ e, load bare a = .error e := by
  intro text a bare host
  let c : Configuration := ⟨"out", true, ⟨"$File", .attempt, .error, .error⟩⟩
  obtain ⟨layer, hlayer, htable, hsaid, hbad⟩ : ∃ layer ∈ fileLayer? (some (Text.bytes text)),
      (∀ v ∈ layer.lookup "processor", (v.at? ["suffix"]).isSome) ∧
      (∀ x ∈ [Setting.outDir, .dryRun, .suffix, .reemit, .validationSeverity, .artifactSeverity],
        x.IsSaid (x.winning layer host.environment a) c) ∧
      (Setting.reemit.winning layer [] a).asWord? ReemitPolicy.vocabulary = none := by
    decide +kernel
  have hfile : ∀ environment, file? { bare with environment } a = .ok (some (Text.bytes text)) :=
    fun _ => rfl
  have hprocessor : ∀ v, layer.lookup "processor" = some v → ∃ t, v = .table t := by
    intro v hv
    have hv := htable v hv
    cases v with
    | table t => exact ⟨t, rfl⟩
    | _ => cases hv
  have henvironment : ∀ e ∈ host.environment, Environment.path? e.1 ≠ some ["processor"] := by
    decide +kernel
  refine ⟨layer, hfile _, hlayer, hprocessor, henvironment, ?_, ?_⟩
  · refine ((load_setting_by_setting (hfile _) hlayer hprocessor henvironment).1 c).2 fun x => ?_
    exact hsaid x (by cases x <;> decide)
  · refine (load_setting_by_setting (hfile []) hlayer hprocessor (List.forall_mem_nil _)).2.2
      ⟨.reemit, ?_⟩
    rintro ⟨c, hc⟩
    exact Option.some_ne_none _ (hc.symm.trans hbad)

end Configuration

end SavedState
