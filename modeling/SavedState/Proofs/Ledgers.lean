import Mathlib.Data.Prod.Basic
import SavedState.Invocation
import SavedState.Proofs.DryRun
import SavedState.Proofs.GrowingTrees
import SavedState.Proofs.SummaryWriting

/-!
The accounts of a run.

A run is accounted for in several places: the outcomes and the counters of its rounds, the list of
diagnostics, the list of artifacts, what is printed, and the status of the command. They are kept by
different parts of it, and they agree.
-/

namespace SavedState

/-! ### Ledgers of sinks -/

/-- The types whose helper has been written, in that order. -/
def writtenTypes (outcomes : List (DeclaringType × Outcome)) : List DeclaringType :=
  (outcomes.filter fun e => e.2.isWritten).map (·.1)

lemma writtenTypes_append (l m : List (DeclaringType × Outcome)) :
    writtenTypes (l ++ m) = writtenTypes l ++ writtenTypes m := by
  unfold writtenTypes
  rw [List.filter_append, List.map_append]

lemma writtenTypes_singleton (d : DeclaringType) (o : Outcome) :
    writtenTypes [(d, o)] = if o.isWritten then [d] else [] := by
  unfold writtenTypes
  cases h : o.isWritten <;> simp [h]

namespace Processor

variable {σ β : Type} (u : Setup) (sink : Sink σ)

/-- The world of a sink lists what has been written and nothing else, with an entry for each
type. -/
def KeepsLedger (ledger : σ → List β) (entry : DeclaringType → β) : Prop :=
  ∀ d fields w, ledger (u.driver.emit sink d fields w).2 =
    ledger w ++ if (u.driver.emit sink d fields w).1.1.isWritten then [entry d] else []

variable {u sink} {ledger : σ → List β} {entry : DeclaringType → β}

/-- A visit enters what it has written. -/
lemma KeepsLedger.visit (h : KeepsLedger u sink ledger entry) {before : List β} {pass : Pass σ}
    (hp : ledger pass.world = before ++ (writtenTypes pass.outcomes).map entry)
    (e : DeclaringType × FieldSet) :
    ledger (pass.visit u sink e).world =
      before ++ (writtenTypes (pass.visit u sink e).outcomes).map entry := by
  rcases visit_cases u sink pass e with ⟨n, -, -, hv⟩ | ⟨-, hv⟩
  · have hskip : (pass.skip u e.1 e.2 n).world = pass.world ∧
        (pass.skip u e.1 e.2 n).outcomes =
          pass.outcomes ++ [(e.1, .skipped (u.driver.helperName e.1).artifact)] := by
      unfold Pass.skip
      split <;> exact ⟨rfl, rfl⟩
    rw [hv, hskip.1, hskip.2, hp, writtenTypes_append, writtenTypes_singleton]
    simp [Outcome.isWritten]
  · rw [hv]
    unfold Pass.emit
    dsimp only
    rw [h, hp, writtenTypes_append, writtenTypes_singleton, List.map_append, List.append_assoc]
    split <;> rfl

lemma KeepsLedger.foldl (h : KeepsLedger u sink ledger entry) {before : List β} {pass : Pass σ}
    (hp : ledger pass.world = before ++ (writtenTypes pass.outcomes).map entry)
    (l : List (DeclaringType × FieldSet)) :
    ledger (l.foldl (Pass.visit u sink) pass).world =
      before ++ (writtenTypes (l.foldl (Pass.visit u sink) pass).outcomes).map entry := by
  induction l generalizing pass with
  | nil => exact hp
  | cons e l ih => exact ih (h.visit hp e)

lemma KeepsLedger.process (h : KeepsLedger u sink ledger entry) (p : Processor) (r : Round)
    (w : σ) : ledger (p.process u sink r w).world =
      ledger w ++ (writtenTypes (p.process u sink r w).report.emission.outcomes).map entry := by
  rw [process_world, process_outcomes]
  exact h.foldl (by simp [writtenTypes]) _

/-- **What is listed in the end is what has been written in the rounds, one after another.** -/
lemma KeepsLedger.after (h : KeepsLedger u sink ledger entry) (p : Processor) (w : σ)
    (rs : List Round) : ledger (after u sink p w rs).2 =
      ledger w ++ (steps u sink p w rs).flatMap fun s =>
        (writtenTypes s.report.emission.outcomes).map entry := by
  induction rs generalizing p w with
  | nil => simp
  | cons r rs ih =>
    rw [after_cons, steps_cons, ih, h.process, List.flatMap_cons, List.append_assoc]

end Processor

/-! ### The ledgers of memory and of a directory -/

lemma Treatment.keepsLedger {u : Setup} (hu : u.emitter = HelperText.emitter) :
    Processor.KeepsLedger u Treatment.kind.sink Artifacts.names
      fun d => (u.driver.helperName d).artifact := by
  intro d fields w
  by_cases h : Treatment.kind.Accepts w (u.driver.helperName d).artifact
  · obtain ⟨hworld, hout⟩ := Treatment.kind.emit_of_accepts fields hu h
    rw [if_pos ⟨isWithin_none _, rfl⟩] at hout
    rw [hworld, hout]
    exact List.map_append
  · obtain ⟨reason, he⟩ := Treatment.kind.emit_of_not_accepts fields h
    rw [he]
    exact (List.append_nil _).symm

namespace OutputDirectory

open FileTree

variable (o : OutputDirectory) (m : Medium) (helper : HelperName) (d : DeclaringType)

/-- What the creation of a file for a helper comes to: nothing but directories, or an empty file
that is listed. -/
inductive Creates (w : Output) : Except IoError (Channel Output) × Output → Prop
  | refused (e : IoError) (tree : FileTree) : Creates w (.error e, ⟨tree, w.created⟩)
  | opened (tree : FileTree) (place : Place) (hne : place ≠ []) :
      Creates w (.ok (channel m place), ⟨tree.put place (.file []),
        w.created ++ [(relativePath helper d, helper.artifact)]⟩)

lemma creates (w : Output) :
    Creates m helper d w (((o.sink m).create helper d).run.run w) := by
  let finish : Act Output (Channel Output) := do
    let place ← Output.onTree (openEmpty o.base (relativePath helper d))
    modify fun output =>
      { output with created := output.created ++ [(relativePath helper d, helper.artifact)] }
    return channel m place
  have hfinish : ∀ tree : FileTree, Creates m helper d w (finish.run.run ⟨tree, w.created⟩) := by
    intro tree
    unfold finish
    rw [Act.run_bind, Output.run_onTree]
    rcases openEmpty_cases o.base (relativePath helper d) tree with
      ⟨e, hrun⟩ | ⟨place, hlocates, -, hrun⟩
    · rw [hrun]
      exact .refused e tree
    · obtain ⟨up, -, hplace⟩ := hlocates.walked
      rw [hrun]
      exact .opened tree place (by simp [hplace])
  change Creates m helper d w ((o.create m helper d).run.run w)
  unfold create
  dsimp only
  rw [Act.run_bind, Act.run_get]
  dsimp only
  cases w.owner? (relativePath helper d) with
  | some owner => exact .refused _ w.tree
  | none =>
    cases FilePath.parent? (relativePath helper d) with
    | none => exact hfinish w.tree
    | some up =>
      dsimp only
      by_cases hempty : up ≠ ""
      · rw [if_pos hempty, Act.run_bind, Output.run_onTree]
        cases (ensureDirectories o.base up).run.run w.tree with
        | mk r tree =>
          cases r with
          | error e => exact .refused e tree
          | ok _ => exact hfinish tree
      · rw [if_neg hempty]
        exact hfinish w.tree

/-- Where files take all bytes, the files that are created are those of the helpers that are
written. -/
lemma keepsLedger {u : Setup} (hu : u.emitter = HelperText.emitter) :
    Processor.KeepsLedger u (o.sink .willing)
      (fun w => w.created.map fun e => FilePath.join o.path e.1)
      fun d => FilePath.join o.path (relativePath (u.driver.helperName d) d) := by
  intro d fields w
  have hcreates := o.creates .willing (u.driver.helperName d) d w
  cases hr : ((o.sink .willing).create (u.driver.helperName d) d).run.run w with
  | mk r w' =>
    rw [hr] at hcreates
    cases hcreates with
    | refused e tree =>
      rw [Driver.emit_of_error (Driver.perform_of_not_created fields hr)]
      exact (List.append_nil _).symm
    | opened tree place hne =>
      have hperform := Driver.perform_of_created fields hr
      have hemitter : u.driver.emitter = HelperText.emitter := hu
      rw [hemitter, run_helper hne] at hperform
      rw [Driver.emit_of_ok hperform]
      simp only [Outcome.isWritten, if_true, List.map_append, List.map_singleton]

end OutputDirectory

/-! ### The accounts in a summary -/

namespace Summary

/-- Whether a summary tells what the steps of a run have come to. -/
structure IsOf {σ : Type} (s : Summary) (paths : List String) (steps : List (Processor.Step σ)) :
    Prop where
  rounds : s.rounds = paths.zip (steps.map Processor.Step.report)
  paths : s.rounds.map (·.1) = paths
  diagnostics : s.diagnostics = steps.flatMap Processor.Step.diagnostics
  errors : s.errors = s.diagnostics.countP Diagnostic.isError

/-- Whether the artifacts of a summary are the helpers that the steps of a run have written. -/
def Lists {σ : Type} (s : Summary) (steps : List (Processor.Step σ))
    (entry : DeclaringType → String) : Prop :=
  s.artifacts = steps.flatMap fun x => (writtenTypes x.report.emission.outcomes).map entry

end Summary

namespace Processor

variable {σ : Type} {u : Setup} {sink : Sink σ}

lemma length_steps (p : Processor) (w : σ) (rs : List Round) :
    (steps u sink p w rs).length = rs.length := by
  induction rs generalizing p w with
  | nil => rfl
  | cons r rs ih => rw [steps_cons, List.length_cons, ih, List.length_cons]

/-- Each round counts its own errors, and the errors of a summary are those of its rounds. -/
lemma foldr_errors {p : Processor} {w : σ} {rs : List Round} {paths : List String}
    (h : paths.length = rs.length) :
    (paths.zip ((steps u sink p w rs).map Step.report)).foldr (fun r n => r.2.errors + n) 0 =
      ((steps u sink p w rs).flatMap Step.diagnostics).countP Diagnostic.isError := by
  induction rs generalizing p w paths with
  | nil => simp
  | cons r rs ih =>
    cases paths with
    | nil => cases h
    | cons path paths =>
      rw [steps_cons, List.map_cons, List.zip_cons_cons, List.foldr_cons,
        ih (Nat.succ.inj h), List.flatMap_cons, List.countP_append]
      exact congrArg (· + _) (process_counts u sink p r w).1

lemma isOf_ofHistory (rounds : List (String × Round)) (w : σ) (artifacts : List String)
    (isDryRun : Bool) :
    (Summary.ofHistory (rounds.map (·.1)) (run u sink (rounds.map (·.2)) w) artifacts
      isDryRun).IsOf (rounds.map (·.1)) (steps u sink fresh w (rounds.map (·.2))) := by
  have hlength : (rounds.map (·.1)).length =
      ((steps u sink fresh w (rounds.map (·.2))).map Step.report).length := by
    rw [List.length_map, List.length_map, length_steps, List.length_map]
  rw [run_eq]
  exact ⟨rfl, List.map_fst_zip (Nat.le_of_eq hlength), rfl, foldr_errors (by simp)⟩

end Processor

lemma Summary.IsOf.hasErrors_iff {σ : Type} {s : Summary} {paths : List String}
    {steps : List (Processor.Step σ)} (h : s.IsOf paths steps) :
    s.hasErrors = true ↔ ∃ d ∈ s.diagnostics, d.severity = .error := by
  unfold hasErrors
  rw [decide_eq_true_eq, h.errors, List.countP_pos_iff]
  simp only [Diagnostic.isError, beq_iff_eq]

namespace Host

variable {host : Host} {a : Arguments} {s : Summary} {tree : FileTree}

/-- Whether a summary gives account of the run of some rounds with some settings. Which artifacts
it lists is known where files take all bytes. -/
def Accounts (host : Host) (c : Configuration) (rounds : List (String × Round)) (s : Summary) :
    Prop :=
  let helper := fun d => HelperName.of d c.processor.suffix
  if c.isDryRun then
    let steps := Processor.steps (setup c.processor) Treatment.kind.sink .fresh []
      (rounds.map (·.2))
    s.IsOf (rounds.map (·.1)) steps ∧ s.Lists steps fun d => (helper d).artifact
  else ∃ directory tree,
    (OutputDirectory.openAt host.base c.outDir).run.run host.tree = (.ok directory, tree) ∧
      let steps := Processor.steps (setup c.processor) (directory.sink host.medium) .fresh
        ⟨tree, []⟩ (rounds.map (·.2))
      s.IsOf (rounds.map (·.1)) steps ∧ (host.medium = .willing → s.Lists steps
        fun d => FilePath.join directory.path (OutputDirectory.relativePath (helper d) d))

/-- A run that gives a summary has loaded all it needs, and accounts for what it does with it. -/
lemma accounts_of_run (h : host.run a = (.ok s, tree)) :
    ∃ c rounds, Configuration.load host a = .ok c ∧ Round.loadAll host a.manifests = .ok rounds ∧
      rounds.map (·.1) = a.manifests ∧ host.Accounts c rounds s := by
  cases hc : Configuration.load host a with
  | error e =>
    unfold run at h
    rw [hc] at h
    cases h
  | ok c =>
    cases hr : Round.loadAll host a.manifests with
    | error e =>
      unfold run at h
      rw [hc, hr] at h
      cases h
    | ok rounds =>
      refine ⟨c, rounds, rfl, rfl, (Round.loadAll_ok hr).1, ?_⟩
      rw [run_of_loaded hc hr] at h
      unfold Accounts
      dsimp only
      split at h
      · rename_i hdry
        cases h
        rw [if_pos hdry]
        refine ⟨Processor.isOf_ofHistory _ _ _ _, ?_⟩
        unfold Summary.Lists rehearse Summary.ofHistory
        rw [Processor.run_eq]
        exact (Treatment.keepsLedger (u := setup c.processor) rfl).after .fresh [] _
      · rename_i hdry
        rw [if_neg hdry]
        split at h
        · cases h
        · rename_i directory tree' hopen
          cases h
          refine ⟨directory, tree', hopen, Processor.isOf_ofHistory _ _ _ _, fun hmedium => ?_⟩
          unfold Summary.Lists generate Summary.ofHistory
          dsimp only
          rw [hmedium, Processor.run_eq]
          exact (directory.keepsLedger (u := setup c.processor) rfl).after .fresh ⟨tree', []⟩ _

lemma hasErrors_iff (h : host.run a = (.ok s, tree)) :
    s.hasErrors = true ↔ ∃ d ∈ s.diagnostics, d.severity = .error := by
  obtain ⟨c, rounds, -, -, -, haccounts⟩ := accounts_of_run h
  unfold Accounts at haccounts
  dsimp only at haccounts
  split at haccounts
  · exact haccounts.1.hasErrors_iff
  · obtain ⟨directory, tree', -, hof, -⟩ := haccounts
    exact hof.hasErrors_iff

/-! ### The status of the command -/

variable {σ : Type} {words : List String}

/-- The status of a run that has been done goes by how its summary has been written. -/
lemma conclude_eq (s : Summary) (out diagnostics : Channel σ) (terminal : σ) :
    (∃ e after, s.CutShort out diagnostics e terminal after ∧
        conclude s out diagnostics terminal = (2, after)) ∨
      ∃ after, s.Printed out diagnostics terminal after ∧
        conclude s out diagnostics terminal = (if s.hasErrors then 1 else 0, after) := by
  unfold conclude
  cases hwrite : (s.write out diagnostics).run.run terminal with
  | mk r after =>
    cases r with
    | error e => exact .inl ⟨e, after, Summary.cutShort_iff.2 hwrite, rfl⟩
    | ok _ => exact .inr ⟨after, Summary.printed_iff.2 hwrite, rfl⟩

/-- **The summary and the status tell the truth.** A summary has a report for each manifest, the
diagnostics of the rounds one after another, as many errors as there are diagnostics of that
severity, and where files take all bytes, an entry in its list of artifacts for each helper that has
been written, in that order, and for nothing else. The status is 2 just if the run could not be done
or the printing of its summary was cut short. Else the line of each diagnostic has been delivered
and then the lines of the rounds and artifacts; and the status is 1 just if one of these diagnostics
is an error, and 0 in all other cases. -/
theorem invoke_tells_truth (ha : Arguments.read words = .ok a) (out diagnostics : Channel σ)
    (terminal : σ) :
    let ending := host.invoke words out diagnostics terminal
    (∀ s tree, host.run a = (.ok s, tree) → ∃ c rounds,
        Configuration.load host a = .ok c ∧ Round.loadAll host a.manifests = .ok rounds ∧
          rounds.map (·.1) = a.manifests ∧ host.Accounts c rounds s) ∧
      (ending.status = 2 ↔ (∃ e, (host.run a).1 = .error e) ∨ ∃ s e, (host.run a).1 = .ok s ∧
        s.CutShort out diagnostics e terminal ending.terminal) ∧
      (ending.status = 1 ↔ ∃ s, (host.run a).1 = .ok s ∧
        s.Printed out diagnostics terminal ending.terminal ∧
          ∃ d ∈ s.diagnostics, d.severity = .error) ∧
      (ending.status = 0 ↔ ∃ s, (host.run a).1 = .ok s ∧
        s.Printed out diagnostics terminal ending.terminal ∧
          ∀ d ∈ s.diagnostics, d.severity ≠ .error) := by
  intro ending
  refine ⟨fun s tree h => accounts_of_run h, ?_⟩
  have hinvoke : ending = host.execute a out diagnostics terminal := by
    unfold ending invoke
    rw [ha]
  unfold execute at hinvoke
  cases hrun : host.run a with
  | mk r tree =>
    rw [hrun] at hinvoke
    cases r with
    | error e => simp [hinvoke]
    | ok s =>
      have hending : (ending.status, ending.terminal) = conclude s out diagnostics terminal := by
        rw [hinvoke]
      -- there is one summary, and so it is this one that is printed or cut short
      have hsummary : ∀ P : Summary → Prop,
          (∃ s', (Except.ok s : Except RunError Summary) = .ok s' ∧ P s') ↔ P s := by
        intro P
        refine ⟨?_, fun h => ⟨s, rfl, h⟩⟩
        rintro ⟨s', hs, hP⟩
        cases hs
        exact hP
      have hnot : ¬∃ e, (Except.ok s : Except RunError Summary) = .error e := nofun
      dsimp only
      rw [or_iff_right hnot, hsummary, hsummary]
      simp only [exists_and_left, hsummary]
      rcases conclude_eq s out diagnostics terminal with
        ⟨e, after, hcut, hconclude⟩ | ⟨after, hprinted, hconclude⟩
      · obtain ⟨hstatus, rfl⟩ := Prod.mk.inj (hending.trans hconclude)
        have hunprinted : ¬s.Printed out diagnostics terminal ending.terminal := hcut.not_printed
        exact ⟨iff_of_true hstatus ⟨e, hcut⟩, iff_of_false (by simp [hstatus]) fun h =>
          hunprinted h.1, iff_of_false (by simp [hstatus]) fun h => hunprinted h.1⟩
      · obtain ⟨hstatus, rfl⟩ := Prod.mk.inj (hending.trans hconclude)
        have hwhole : ¬∃ e, s.CutShort out diagnostics e terminal ending.terminal :=
          fun ⟨e, hcut⟩ => hcut.not_printed hprinted
        have herrors := hasErrors_iff hrun
        by_cases hb : s.hasErrors = true
        · have hsome := herrors.1 hb
          rw [if_pos hb] at hstatus
          refine ⟨iff_of_false (by simp [hstatus]) hwhole, iff_of_true hstatus ⟨hprinted, hsome⟩,
            iff_of_false (by simp [hstatus]) ?_⟩
          obtain ⟨d, hd, he⟩ := hsome
          exact fun hall => hall.2 d hd he
        · have hnone : ∀ d ∈ s.diagnostics, d.severity ≠ .error :=
            fun d hd he => hb (herrors.2 ⟨d, hd, he⟩)
          rw [if_neg hb] at hstatus
          refine ⟨iff_of_false (by simp [hstatus]) hwhole, iff_of_false (by simp [hstatus]) ?_,
            iff_of_true hstatus ⟨hprinted, hnone⟩⟩
          rintro ⟨-, d, hd, he⟩
          exact hnone d hd he

/-- Two classes that want the same file, and a field that cannot be saved. One helper is written
and listed, and the other two troubles are errors, which are printed. -/
theorem invoke_tells_truth_clash :
    let text := "[\x7b\x7d,[[\"A$B\",\"x\",\"int\"],[\"A.B\",\"x\",\"int\"]," ++
      "[\"A.B\",\"y\",\"int\",[\"final\"]]]]"
    let host : Host := ⟨[(["m"], .file (Text.bytes text))], [], [], .willing⟩
    let a : Arguments := { Arguments.none with manifests := ["m"] }
    let channel := Treatment.kind.channel
    let screen : Artifacts := [("out", []), ("diagnostics", [])]
    let told := "error: A.B.y: field must not be private, protected, static or final " ++
      "(found final)\nerror: A.B: impossible to create A.B$$Icicle: " ++
      "generated/A$B$$Icicle.java is already used by A$B$$Icicle\n"
    let ending := host.invoke ["m"] (channel "out") (channel "diagnostics") screen
    Arguments.read ["m"] = .ok a ∧ ending.status = 1 ∧
      ending.terminal.get? "diagnostics" = some (Text.bytes told) ∧
      ∃ s c rounds, (host.run a).1 = .ok s ∧
        s.Printed (channel "out") (channel "diagnostics") screen ending.terminal ∧
        (∃ d ∈ s.diagnostics, d.severity = .error) ∧ host.Accounts c rounds s ∧ s.errors = 2 ∧
        s.artifacts = ["generated/A$B$$Icicle.java"] := by
  intro text host a channel screen told ending
  have ha : Arguments.read ["m"] = .ok a := by decide +kernel
  obtain ⟨hstatus, hprints, hlists⟩ : ending.status = 1 ∧
      ending.terminal.get? "diagnostics" = some (Text.bytes told) ∧
      (host.run a).1.toOption.map (fun s => (s.errors, s.artifacts)) =
        some (2, ["generated/A$B$$Icicle.java"]) := by decide +kernel
  obtain ⟨haccounts, -, hone, -⟩ :=
    @invoke_tells_truth host a _ _ ha (channel "out") (channel "diagnostics") screen
  obtain ⟨s, hs, hprinted, herror⟩ := hone.1 hstatus
  obtain ⟨c, rounds, -, -, -, hof⟩ := haccounts s _ (Prod.fst_eq_iff.1 hs)
  rw [hs] at hlists
  obtain ⟨herrors, hartifacts⟩ := Prod.mk.inj (Option.some.inj hlists)
  exact ⟨ha, hstatus, hprints, s, c, rounds, hs, hprinted, herror, hof, herrors, hartifacts⟩

end Host

end SavedState
