import SavedState.Proofs.Ledgers
import SavedState.Proofs.SecondAttempts
import SavedState.Proofs.Deposits

/-!
The same rounds once more, in the directory that they have left.

Nothing that a run puts into a directory is lost before the run ends. So with all that is there in
the end, each attempt of a second run meets what the same attempt of the first run has met or made,
and what it writes is there already.
-/

namespace SavedState

open FilePath OutputDirectory

lemma FileTree.put_self {t : FileTree} {place : Place} (hne : place ≠ []) {entry : FileEntry}
    (h : t.get? place = some entry) : t.put place entry = t := by
  unfold get? at h
  rw [if_neg hne] at h
  induction t with
  | nil => cases h
  | cons e t ih =>
    rw [put_cons]
    by_cases he : e.1 = place
    · subst he
      rw [List.lookup_cons_self, Option.some.injEq] at h
      rw [if_pos rfl, ← h]
    · rw [List.lookup_cons, beq_false_of_ne (Ne.symm he)] at h
      rw [if_neg he, ih h]

/-! ### Deposits -/

/-- What is in an output directory is there later; what has been created stays so, and the files
keep their bytes. -/
structure Output.LastsIn (o : OutputDirectory) (w w' : Output) : Prop where
  tree : w.tree.LastsIn w'.tree
  owned : ∀ x : Deposit, (w.owner? x.path).isSome → (w'.owner? x.path).isSome
  held : ∀ x : Deposit, x.IsNamed → (w.owner? x.path).isSome → ∀ bytes,
    w.tree.get? (x.place o) = some (.file bytes) → w'.tree.get? (x.place o) = some (.file bytes)

namespace Output.LastsIn

variable {o : OutputDirectory} {w w' w'' : Output}

lemma refl (o : OutputDirectory) (w : Output) : w.LastsIn o w :=
  ⟨.refl _, fun _ h => h, fun _ _ _ _ h => h⟩

lemma trans (h : w.LastsIn o w') (h' : w'.LastsIn o w'') : w.LastsIn o w'' :=
  ⟨h.tree.trans h'.tree, fun x hx => h'.owned x (h.owned x hx), fun x hn hx bytes hb =>
    h'.held x hn (h.owned x hx) bytes (h.held x hn hx bytes hb)⟩

end Output.LastsIn

namespace Deposit

variable {o : OutputDirectory} {m : Medium} {x : Deposit} {w w' : Output}
  {r : Except IoError Unit}

lemma owner?_append (w : Output) (tree : FileTree) (entry : String × String) (path : String) :
    (⟨tree, w.created ++ [entry]⟩ : Output).owner? path =
      (w.owner? path).or (if FilePath.same entry.1 path then some entry.2 else none) := by
  unfold Output.owner?
  rw [List.find?_append]
  cases w.created.find? fun e => FilePath.same e.1 path with
  | some e => rfl
  | none => cases h : FilePath.same entry.1 path <;> simp [h]

/-- **Nothing is lost by a deposit.** -/
lemma perform_lasts (hx : x.IsNamed) (hrun : (x.perform (o.sink m)).run.run w = (r, w')) :
    w.LastsIn o w' := by
  have hends := ends o m w hx
  rw [hrun] at hends
  cases hends with
  | owned owner _ howner => exact .refl o w
  | failed e tree _ hnone hgrows =>
    exact ⟨.of_grows hgrows, fun _ h => h, fun y _ _ bytes hb => (hgrows _).file_iff.2 hb⟩
  | stored tree _ hnone hgrows hlocates hd =>
    refine ⟨(FileTree.LastsIn.of_grows hgrows).trans (.put_file (x.place_ne_nil o) hd _),
      fun y hy => ?_, fun y hn hy bytes hb => ?_⟩
    · rw [owner?_append, Option.isSome_or, hy]
      rfl
    · rw [FileTree.get?_put (x.place_ne_nil o), if_neg, (hgrows _).file_iff]
      · exact hb
      · intro hplace
        rw [(place_eq_iff hn hx).1 hplace, hnone] at hy
        cases hy

lemma perform_of_owned {owner : String} (h : w.owner? x.path = some owner) :
    (x.perform (o.sink m)).run.run w =
      (.error (refusal (join o.path x.path) x.helper.artifact owner), w) :=
  perform_of_refused o m w (run_create_of_owned o m w h)

/-- Opens the file of a helper. -/
def openFile (o : OutputDirectory) (x : Deposit) : Act FileTree Place :=
  FileTree.openBelow o.base x.type.packages (x.type.fileName x.suffix)

/-- A helper whose path is free is created by opening its file. -/
lemma run_create_eq (hx : x.IsNamed) (h : w.owner? x.path = none) :
    ((o.sink m).create x.helper x.type).run.run w =
      (Output.onTree (openFile o x) >>= fun place => do
        modify fun output =>
          { output with created := output.created ++ [(x.path, x.helper.artifact)] }
        return channel m place).run.run w := by
  have hup : parent? x.path = some (through x.type.packages) := by
    rw [path_eq hx]
    exact parent?_through (DeclaringType.isPlain_packages hx.type)
      (DeclaringType.isPlain_fileName hx.type hx.suffix)
  rw [run_create_of_free o m w h, hup, Option.elim_some]
  unfold openFile FileTree.openBelow finish
  rw [path_eq hx, names, DeclaringType.fileNames]
  by_cases hempty : through x.type.packages ≠ ""
  · rw [if_pos hempty, Act.run_bind, Act.run_bind, Output.run_onTree, Output.run_onTree,
      Act.run_bind]
    cases (FileTree.ensureDirectories o.base (through x.type.packages)).run.run w.tree with
    | mk r tree =>
      cases r with
      | error e => rfl
      | ok _ =>
        dsimp only
        rw [Act.run_bind, Output.run_onTree]
  · rw [if_neg hempty]
    rw [not_not] at hempty
    rw [Act.run_bind, Act.run_bind, Output.run_onTree, Output.run_onTree, Act.run_bind, hempty,
      FileTree.run_ensureDirectories_empty]

lemma perform_of_not_opened (hx : x.IsNamed) (h : w.owner? x.path = none) {e : IoError}
    {tree : FileTree} (hrun : (openFile o x).run.run w.tree = (.error e, tree)) :
    (x.perform (o.sink m)).run.run w = (.error e, ⟨tree, w.created⟩) := by
  refine perform_of_refused o m w ?_
  rw [run_create_eq hx h, Act.run_bind, Output.run_onTree, hrun]

lemma perform_of_opened (hx : x.IsNamed) (h : w.owner? x.path = none) {place : Place}
    {tree : FileTree} (hrun : (openFile o x).run.run w.tree = (.ok place, tree)) :
    (x.perform (o.sink m)).run.run w =
      ((x.filled o m).1, ⟨tree.put (x.place o) (.file (x.filled o m).2),
        w.created ++ [(x.path, x.helper.artifact)]⟩) := by
  obtain ⟨rfl, hempty⟩ := FileTree.openBelow_eq_ok (isPlain_names hx) hrun
  have hfill := m.run_fill (x.place_ne_nil o) tree (w.created ++ [(x.path, x.helper.artifact)]) []
    x.pieces
  rw [FileTree.put_self (x.place_ne_nil o) hempty] at hfill
  unfold perform
  rw [Act.run_bind, run_create_eq hx h, Act.run_bind, Output.run_onTree, hrun]
  exact hfill

lemma perform_preserves_rootedAt (hx : x.IsNamed) :
    (x.perform (o.sink m)).Preserves fun w => w.tree.RootedAt o.base := by
  intro w hw
  cases howner : w.owner? x.path with
  | some owner =>
    rw [perform_of_owned howner]
    exact hw
  | none =>
    have hopened : ((openFile o x).run.run w.tree).2.RootedAt o.base :=
      FileTree.openBelow_preserves_rootedAt w.tree hw
    cases hrun : (openFile o x).run.run w.tree with
    | mk r tree =>
      rw [hrun] at hopened
      cases r with
      | error e =>
        rw [perform_of_not_opened hx howner hrun]
        exact hopened
      | ok place =>
        obtain ⟨rfl, hempty⟩ := FileTree.openBelow_eq_ok (isPlain_names hx) hrun
        rw [perform_of_opened hx howner hrun]
        exact hopened.put_file hempty (x.filled o m).2

/-- **A deposit once more**, in a directory where all is left of it. -/
lemma perform_again (hx : x.IsNamed) (hw : w.tree.RootedAt o.base)
    (hrun : (x.perform (o.sink m)).run.run w = (r, w')) {v : Output} (hl : w'.LastsIn o v) :
    ∃ r', (x.perform (o.sink m)).run.run ⟨v.tree, w.created⟩ = (r', ⟨v.tree, w'.created⟩) ∧
      (r' = r ∨ FileTree.TooLongByLast x.type.packages ∧ r.toOption.isNone ∧
        r'.toOption.isNone) := by
  cases howner : w.owner? x.path with
  | some owner =>
    rw [perform_of_owned howner] at hrun
    cases hrun
    have howner' : (⟨v.tree, w.created⟩ : Output).owner? x.path = some owner := howner
    exact ⟨_, perform_of_owned howner', .inl rfl⟩
  | none =>
    have hfree : (⟨v.tree, w.created⟩ : Output).owner? x.path = none := howner
    cases hopen : (openFile o x).run.run w.tree with
    | mk r₀ tree =>
      cases r₀ with
      | error e =>
        rw [perform_of_not_opened hx howner hopen] at hrun
        cases hrun
        rcases FileTree.run_openBelow_again hw.1 (isPlain_names hx) hopen hl.tree with
          hagain | ⟨hlong, -, hagain⟩
        · exact ⟨_, perform_of_not_opened hx hfree hagain, .inl rfl⟩
        · exact ⟨_, perform_of_not_opened hx hfree hagain, .inr ⟨hlong, rfl, rfl⟩⟩
      | ok place =>
        rw [perform_of_opened hx howner hopen] at hrun
        cases hrun
        obtain ⟨rfl, hempty⟩ := FileTree.openBelow_eq_ok (isPlain_names hx) hopen
        have hne := x.place_ne_nil o
        have hthere : v.tree.get? (x.place o) = some (.file (x.filled o m).2) := by
          refine hl.held x hx ?_ _ (by rw [FileTree.get?_put hne, if_pos rfl])
          rw [owner?_append, howner, FilePath.same, beq_self_eq_true]
          rfl
        have hd : tree.get? (x.place o) ≠ some .directory := by
          intro hd
          cases hempty.symm.trans hd
        have hl₀ : tree.LastsIn v.tree := (FileTree.LastsIn.put_file hne hd _).trans hl.tree
        rcases FileTree.run_openBelow_again hw.1 (isPlain_names hx) hopen hl₀ with
          hagain | ⟨-, hnone, -⟩
        · refine ⟨_, ?_, .inl rfl⟩
          rw [perform_of_opened hx hfree hagain]
          -- what is written is there already
          have htree : (v.tree.put (x.place o) (.file [])).put (x.place o)
              (.file (x.filled o m).2) = v.tree := by
            rw [FileTree.put_put, FileTree.put_self hne hthere]
          exact congrArg (fun tree => ((x.filled o m).1, (⟨tree, _⟩ : Output))) htree
        · cases hnone

end Deposit

/-! ### What is said again -/

namespace DeclaringType

/-- Whether the path of the package is too long, while that of the package above is not. -/
def IsOverlong (d : DeclaringType) : Prop := FileTree.TooLongByLast d.packages

instance (d : DeclaringType) : Decidable d.IsOverlong :=
  inferInstanceAs (Decidable (FileTree.TooLongByLast _))

end DeclaringType

/-- An outcome with its type, for an overlong one without the reason of a failure. -/
def blurOutcome (e : DeclaringType × Outcome) : DeclaringType × Outcome :=
  if e.1.IsOverlong then (e.1, e.2.gist) else e

/-- Whether the helper of an overlong type is meant. -/
def Subject.IsOverlong : Subject → Prop
  | element _ _ => False
  | type d => d.IsOverlong

instance : DecidablePred Subject.IsOverlong
  | .element _ _ => inferInstanceAs (Decidable False)
  | .type d => inferInstanceAs (Decidable d.IsOverlong)

/-- A diagnostic, about the helper of an overlong type without its message. -/
def Diagnostic.blur (x : Diagnostic) : Diagnostic :=
  if x.subject.IsOverlong then { x with message := "" } else x

/-- Diagnostics that are blurred keep their severity. -/
lemma Diagnostic.count_congr {l m : List Diagnostic} (h : l.map blur = m.map blur)
    (severity : Severity) : count severity l = count severity m := by
  have hblur : ∀ l, count severity (l.map blur) = count severity l := by
    intro l
    unfold count
    rw [List.countP_map]
    refine List.countP_congr fun x _ => ?_
    unfold blur
    rw [Function.comp_apply]
    split <;> rfl
  rw [← hblur, h, hblur]

/-- A report without what is blurred in its outcomes. -/
def RoundReport.blur (r : RoundReport) : RoundReport :=
  { r with emission := ⟨r.emission.outcomes.map blurOutcome⟩ }

/-! ### Helpers -/

namespace Driver

/-- The helper of a type as a deposit. -/
def deposit (v : Driver) (d : DeclaringType) (fields : FieldSet) : Deposit :=
  ⟨d, v.suffix, (HelperText.lines d (v.helperName d) fields).map fun line =>
    Text.bytes (line ++ "\n")⟩

variable {v : Driver} {σ : Type} {sink : Sink σ}

lemma perform_eq (hv : v.emitter = HelperText.emitter) (d : DeclaringType) (fields : FieldSet) :
    v.perform sink d fields = (v.deposit d fields).perform sink := by
  unfold perform Deposit.perform
  rw [hv]
  unfold HelperText.emitter deposit
  simp only [List.forM_eq_forM, List.forM_map]
  rfl

lemma emit_snd (v : Driver) (sink : Sink σ) (d : DeclaringType) (fields : FieldSet) (w : σ) :
    (v.emit sink d fields w).2 = ((v.perform sink d fields).run.run w).2 := by
  cases hrun : (v.perform sink d fields).run.run w with
  | mk r w' =>
    cases r with
    | ok _ => rw [emit_of_ok hrun]
    | error e => rw [emit_of_error hrun]

section

variable {o : OutputDirectory} {m : Medium} (hv : v.emitter = HelperText.emitter)
  (hs : '/' ∉ v.suffix.toList) {d : DeclaringType} (hd : d.IsNamed) (fields : FieldSet)

include hv hs hd

lemma emit_lasts (w : Output) : w.LastsIn o (v.emit (o.sink m) d fields w).2 := by
  have hx : (v.deposit d fields).IsNamed := ⟨hd, hs⟩
  rw [emit_snd, perform_eq hv]
  exact Deposit.perform_lasts hx rfl

lemma emit_rootedAt {w : Output} (hw : w.tree.RootedAt o.base) :
    (v.emit (o.sink m) d fields w).2.tree.RootedAt o.base := by
  have hx : (v.deposit d fields).IsNamed := ⟨hd, hs⟩
  rw [emit_snd, perform_eq hv]
  exact Deposit.perform_preserves_rootedAt hx w hw

/-- **A helper once more.** -/
lemma emit_again {w f : Output} (hw : w.tree.RootedAt o.base)
    (hl : (v.emit (o.sink m) d fields w).2.LastsIn o f) :
    let first := v.emit (o.sink m) d fields w
    let again := v.emit (o.sink m) d fields ⟨f.tree, w.created⟩
    again.2 = ⟨f.tree, first.2.created⟩ ∧ again.1.1.isWritten = first.1.1.isWritten ∧
      blurOutcome (d, again.1.1) = blurOutcome (d, first.1.1) ∧
      again.1.2.map Diagnostic.blur = first.1.2.map Diagnostic.blur := by
  have hx : (v.deposit d fields).IsNamed := ⟨hd, hs⟩
  rw [emit_snd] at hl
  cases hrun : (v.perform (o.sink m) d fields).run.run w with
  | mk r w' =>
    rw [hrun] at hl
    have hfirst := hrun
    rw [perform_eq hv] at hfirst
    obtain ⟨r', hagain, hsame⟩ := Deposit.perform_again hx hw hfirst hl
    rw [← perform_eq hv] at hagain
    intro first again
    cases r with
    | ok _ =>
      obtain rfl : r' = .ok () := by
        rcases hsame with h | ⟨-, h, -⟩
        · exact h
        · cases h
      unfold first again
      rw [emit_of_ok hrun, emit_of_ok hagain]
      exact ⟨rfl, rfl, rfl, rfl⟩
    | error e =>
      rcases r' with e' | _
      · unfold first again
        rw [emit_of_error hrun, emit_of_error hagain]
        refine ⟨rfl, rfl, ?_⟩
        rcases hsame with h | ⟨hlong, -, -⟩
        · cases h
          exact ⟨rfl, rfl⟩
        · have hlong : d.IsOverlong := hlong
          unfold blurOutcome Diagnostic.blur
          simp only [hlong, List.map_cons, List.map_nil, Outcome.gist, Subject.IsOverlong, if_true]
          exact ⟨trivial, trivial⟩
      · rcases hsame with h | ⟨-, -, h⟩ <;> cases h

end

end Driver

/-! ### Rounds -/

namespace Processor

variable {u : Setup} {o : OutputDirectory} {m : Medium} {f : Output}

/-- A pass over a directory in which all is there already has come as far as the first one, and
has said the same. -/
structure Pass.Repeats (f : Output) (pass pass' : Pass Output) : Prop where
  emitted : pass'.emitted = pass.emitted
  world : pass'.world = ⟨f.tree, pass.world.created⟩
  outcomes : pass'.outcomes.map blurOutcome = pass.outcomes.map blurOutcome
  diagnostics : pass'.diagnostics.map Diagnostic.blur = pass.diagnostics.map Diagnostic.blur

variable {pass pass' : Pass Output}

lemma Pass.Repeats.skip (h : pass.Repeats f pass') (d : DeclaringType) (fields : FieldSet)
    (n : Nat) : (pass.skip u d fields n).Repeats f (pass'.skip u d fields n) := by
  unfold Pass.skip
  split
  · refine ⟨?_, h.world, ?_, ?_⟩
    · simp only [h.emitted]
    · simp only [List.map_append, h.outcomes]
    · simp only [List.map_append, h.diagnostics]
  · refine ⟨h.emitted, h.world, ?_, h.diagnostics⟩
    simp only [List.map_append, h.outcomes]

section

variable (hu : u.emitter = HelperText.emitter) (hs : '/' ∉ u.settings.suffix.toList)

include hu hs

lemma visit_lasts {e : DeclaringType × FieldSet} (he : e.1.IsNamed) (pass : Pass Output) :
    pass.world.LastsIn o (pass.visit u (o.sink m) e).world := by
  rcases visit_cases u (o.sink m) pass e with ⟨n, -, -, hv⟩ | ⟨-, hv⟩
  · rw [hv]
    unfold Pass.skip
    split <;> exact .refl o _
  · rw [hv]
    exact Driver.emit_lasts (v := u.driver) hu hs he e.2 pass.world

lemma visit_rootedAt {e : DeclaringType × FieldSet} (he : e.1.IsNamed)
    (hr : pass.world.tree.RootedAt o.base) :
    (pass.visit u (o.sink m) e).world.tree.RootedAt o.base := by
  rcases visit_cases u (o.sink m) pass e with ⟨n, -, -, hv⟩ | ⟨-, hv⟩
  · rw [hv]
    unfold Pass.skip
    split <;> exact hr
  · rw [hv]
    exact Driver.emit_rootedAt (v := u.driver) hu hs he e.2 hr

lemma foldl_lasts {l : List (DeclaringType × FieldSet)} (hl : ∀ e ∈ l, e.1.IsNamed)
    (pass : Pass Output) : pass.world.LastsIn o (l.foldl (Pass.visit u (o.sink m)) pass).world := by
  induction l generalizing pass with
  | nil => exact .refl o _
  | cons e l ih =>
    rw [List.forall_mem_cons] at hl
    exact (visit_lasts hu hs hl.1 pass).trans (ih hl.2 _)

lemma Pass.Repeats.visit (h : pass.Repeats f pass') {e : DeclaringType × FieldSet}
    (he : e.1.IsNamed) (hr : pass.world.tree.RootedAt o.base)
    (hl : (pass.visit u (o.sink m) e).world.LastsIn o f) :
    (pass.visit u (o.sink m) e).Repeats f (pass'.visit u (o.sink m) e) := by
  unfold Pass.visit at hl ⊢
  rw [h.emitted]
  split
  · exact h.skip e.1 e.2 _
  · rename_i hnone
    rw [hnone] at hl
    obtain ⟨hworld, hwritten, houtcome, hdiagnostics⟩ :=
      Driver.emit_again (v := u.driver) hu hs he e.2 hr hl
    unfold Pass.emit
    dsimp only
    rw [h.world, h.emitted, hwritten]
    refine ⟨rfl, hworld, ?_, ?_⟩
    · simp only [List.map_append, h.outcomes, List.map_cons, List.map_nil, houtcome]
    · simp only [List.map_append, h.diagnostics, hdiagnostics]

/-- **A pass once more.** -/
lemma Pass.Repeats.foldl (h : pass.Repeats f pass') {l : List (DeclaringType × FieldSet)}
    (hl : ∀ e ∈ l, e.1.IsNamed) (hr : pass.world.tree.RootedAt o.base)
    (hlast : (l.foldl (Pass.visit u (o.sink m)) pass).world.LastsIn o f) :
    (l.foldl (Pass.visit u (o.sink m)) pass).Repeats f
      (l.foldl (Pass.visit u (o.sink m)) pass') := by
  induction l generalizing pass pass' with
  | nil => exact h
  | cons e l ih =>
    rw [List.forall_mem_cons] at hl
    have hvisit := (foldl_lasts hu hs hl.2 (pass.visit u (o.sink m) e)).trans hlast
    exact ih (h.visit hu hs hl.1 hr hvisit) hl.2 (visit_rootedAt hu hs hl.1 hr) hlast

lemma process_lasts (p : Processor) (r : Round)
    (hp : ∀ e ∈ (p.gathered u r).entries, e.1.IsNamed) (w : Output) :
    w.LastsIn o (p.process u (o.sink m) r w).world := by
  rw [process_world]
  refine foldl_lasts hu hs ?_ ⟨p.emitted, w, [], []⟩
  split
  · exact hp
  · exact List.forall_mem_nil _

/-- A round once more. -/
lemma process_again (p : Processor) (r : Round) {w : Output}
    (hp : ∀ e ∈ (p.gathered u r).entries, e.1.IsNamed) (hr : w.tree.RootedAt o.base)
    (hlast : (p.process u (o.sink m) r w).world.LastsIn o f) :
    let first := p.process u (o.sink m) r w
    let again := p.process u (o.sink m) r ⟨f.tree, w.created⟩
    again.processor = first.processor ∧ again.world = ⟨f.tree, first.world.created⟩ ∧
      again.report.blur = first.report.blur ∧
      again.diagnostics.map Diagnostic.blur = first.diagnostics.map Diagnostic.blur := by
  have h : (emission u (o.sink m) (p.gathered u r) p.emitted r.isFinal w).Repeats f
      (emission u (o.sink m) (p.gathered u r) p.emitted r.isFinal ⟨f.tree, w.created⟩) := by
    rw [process_world] at hlast
    rw [emission_eq, emission_eq]
    have hstart : Pass.Repeats f ⟨p.emitted, w, [], []⟩ ⟨p.emitted, ⟨f.tree, w.created⟩, [], []⟩ :=
      ⟨rfl, rfl, rfl, rfl⟩
    refine hstart.foldl hu hs ?_ hr hlast
    split
    · exact hp
    · exact List.forall_mem_nil _
  obtain ⟨hemitted, hworld, houtcomes, hdiagnostics⟩ := h
  unfold gathered at hemitted hworld houtcomes hdiagnostics
  have hall : (p.process u (o.sink m) r ⟨f.tree, w.created⟩).diagnostics.map Diagnostic.blur =
      (p.process u (o.sink m) r w).diagnostics.map Diagnostic.blur := by
    simp only [process_eq, List.map_append, hdiagnostics]
  have hcount := Diagnostic.count_congr hall
  simp only [process_eq] at hcount hall ⊢
  unfold RoundReport.blur
  dsimp only
  refine ⟨?_, hworld, ?_, hall⟩
  · rw [hemitted]
  · rw [houtcomes, hcount, hcount]

/-- **A run once more**, in a directory where all is left of it. -/
lemma run_again {types : List DeclaringType} (htypes : ∀ d ∈ types, d.IsNamed) {w : Output}
    (hr : w.tree.RootedAt o.base) (rounds : List Round)
    (hp : ∀ before r, before ++ [r] <+: rounds →
      ∀ e ∈ (run u (o.sink m) (before ++ [r]) w).processor.store.entries, e.1 ∈ types)
    (hlast : (run u (o.sink m) rounds w).world.LastsIn o f) :
    let first := run u (o.sink m) rounds w
    let again := run u (o.sink m) rounds ⟨f.tree, w.created⟩
    again.processor = first.processor ∧ again.world = ⟨f.tree, first.world.created⟩ ∧
      again.reports.map RoundReport.blur = first.reports.map RoundReport.blur ∧
      again.diagnostics.map Diagnostic.blur = first.diagnostics.map Diagnostic.blur := by
  induction rounds using List.reverseRecOn with
  | nil => exact ⟨rfl, rfl, rfl, rfl⟩
  | append_singleton rounds r ih =>
    have hp' : ∀ before r, before ++ [r] <+: rounds →
        ∀ e ∈ (run u (o.sink m) (before ++ [r]) w).processor.store.entries, e.1 ∈ types :=
      fun before x hx => hp before x (hx.trans (List.prefix_append _ _))
    have hstored := hp rounds r List.prefix_rfl
    rw [run_concat] at hstored hlast
    have hentries : ∀ e ∈ ((run u (o.sink m) rounds w).processor.gathered u r).entries,
        e.1.IsNamed :=
      fun e he => htypes e.1 (hstored e he)
    have hrooted : (run u (o.sink m) rounds w).world.tree.RootedAt o.base :=
      run_preserves (I := fun w => w.tree.RootedAt o.base)
        (fun d hd fields w hw => Driver.emit_rootedAt (v := u.driver) hu hs (htypes d hd) fields hw)
        hr rounds hp'
    have hlasts : (run u (o.sink m) rounds w).world.LastsIn o f :=
      (process_lasts hu hs _ r hentries _).trans hlast
    obtain ⟨hprocessor, hworld, hreports, hdiagnostics⟩ := ih hp' hlasts
    obtain ⟨hprocessor', hworld', hreport, hdiagnostics'⟩ :=
      process_again hu hs (run u (o.sink m) rounds w).processor r hentries hrooted hlast
    intro first again
    unfold first again
    rw [run_concat, run_concat]
    unfold History.next
    rw [hprocessor, hworld]
    refine ⟨hprocessor', hworld', ?_, ?_⟩
    · simp only [List.map_append, hreports, List.map_cons, List.map_nil, hreport]
    · simp only [List.map_append, hdiagnostics, hdiagnostics']

end

end Processor

end SavedState
