import Mathlib.Data.List.Nodup
import SavedState.Proofs.GrowingTrees

/-!
Helpers that are put into a directory one after another, whatever the directory holds and whatever
fails.

A helper is refused because its path has been used, or something else is in its way, and then
there may be more directories; or its file is made anew, and takes of the helper what it can. So
what is known of the helpers that are stored outlasts everything that comes later: no path is used
twice, and nothing but its own helper has ever touched the file of a helper.
-/

namespace SavedState

open FilePath OutputDirectory

/-! ### What a file takes -/

namespace Medium

variable {m : Medium} {place : Place} {held bytes : List UInt8} {pieces : List (List UInt8)}
  {refusal : Option Refusal}

/-- What comes of writing pieces to a file one after another and flushing it, and what the file
holds then. The first refusal ends it. -/
def fill (m : Medium) (place : Place) (held : List UInt8) :
    List (List UInt8) → Except IoError Unit × List UInt8
  | [] => taken held (m.onFlush place held)
  | piece :: pieces =>
    match m.onWrite place held piece with
    | none => fill m place (held ++ piece) pieces
    | some r => taken (held ++ piece) (some r)

lemma prefix_taken (bytes : List UInt8) (refusal : Option Refusal) :
    (taken bytes refusal).2 <+: bytes := by
  cases refusal with
  | none => exact List.prefix_rfl
  | some r => exact List.take_prefix _ _

lemma taken_of_ok (h : (taken bytes refusal).1 = .ok ()) : (taken bytes refusal).2 = bytes := by
  cases refusal with
  | none => rfl
  | some r => cases h

/-- A file holds nothing but the beginning of what it has been given. -/
lemma prefix_fill (m : Medium) (place : Place) (held : List UInt8) (pieces : List (List UInt8)) :
    (m.fill place held pieces).2 <+: held ++ pieces.flatten := by
  induction pieces generalizing held with
  | nil =>
    rw [List.flatten_nil, List.append_nil]
    exact prefix_taken _ _
  | cons piece pieces ih =>
    rw [List.flatten_cons, ← List.append_assoc]
    unfold fill
    cases m.onWrite place held piece with
    | none => exact ih _
    | some r => exact (prefix_taken _ _).trans (List.prefix_append _ _)

/-- A file that has refused nothing holds all that it has been given. -/
lemma fill_of_ok (h : (m.fill place held pieces).1 = .ok ()) :
    (m.fill place held pieces).2 = held ++ pieces.flatten := by
  induction pieces generalizing held with
  | nil =>
    rw [List.flatten_nil, List.append_nil]
    exact taken_of_ok h
  | cons piece pieces ih =>
    rw [List.flatten_cons, ← List.append_assoc]
    unfold fill at h ⊢
    cases hr : m.onWrite place held piece with
    | none =>
      rw [hr] at h
      exact ih h
    | some r =>
      rw [hr] at h
      cases h

lemma run_fill (m : Medium) (hne : place ≠ []) (tree : FileTree)
    (created : List (String × String)) (held : List UInt8) (pieces : List (List UInt8)) :
    (pieces.forM (channel m place).write >>= fun _ => (channel m place).flush).run.run
        ⟨tree.put place (.file held), created⟩ =
      ((m.fill place held pieces).1,
        ⟨tree.put place (.file (m.fill place held pieces).2), created⟩) := by
  induction pieces generalizing held with
  | nil => exact run_channel_flush hne tree created m held
  | cons piece pieces ih =>
    change (((channel m place).write piece >>= fun _ => pieces.forM (channel m place).write) >>=
      fun _ => (channel m place).flush).run.run _ = _
    rw [bind_assoc, Act.run_bind, run_channel_write hne]
    unfold fill
    cases m.onWrite place held piece with
    | none => exact ih _
    | some r => rfl

end Medium

/-! ### Deposits -/

/-- A helper that is to be created, written piece by piece, and flushed. -/
structure Deposit where
  type : DeclaringType
  suffix : String
  pieces : List (List UInt8)
deriving DecidableEq

namespace Deposit

def helper (x : Deposit) : HelperName := .of x.type x.suffix

/-- Where the helper goes, seen from the directory. -/
def path (x : Deposit) : String := relativePath x.helper x.type

def names (x : Deposit) : List String := x.type.fileNames x.suffix

def place (x : Deposit) (o : OutputDirectory) : Place := o.place ++ x.names

def bytes (x : Deposit) : List UInt8 := x.pieces.flatten

def perform {σ : Type} (x : Deposit) (sink : Sink σ) : Act σ Unit := do
  let channel ← sink.create x.helper x.type
  x.pieces.forM channel.write
  channel.flush

/-- A deposit for a type that is made of names, with a suffix that is part of a name. -/
structure IsNamed (x : Deposit) : Prop where
  type : x.type.IsNamed
  suffix : '/' ∉ x.suffix.toList

/-! ### Paths -/

section

variable {x y : Deposit}

lemma isPlain_names (h : x.IsNamed) : ∀ s ∈ x.names, IsPlain s :=
  DeclaringType.isPlain_fileNames h.type h.suffix

lemma path_eq (h : x.IsNamed) : x.path = through x.names :=
  DeclaringType.relativePath_eq h.type h.suffix

lemma same_path_iff (hx : x.IsNamed) (hy : y.IsNamed) :
    FilePath.same x.path y.path = true ↔ x.names = y.names := by
  rw [path_eq hx, path_eq hy, same_through (isPlain_names hx) (isPlain_names hy)]

lemma path_eq_iff (hx : x.IsNamed) (hy : y.IsNamed) : x.path = y.path ↔ x.names = y.names := by
  refine ⟨fun h => (same_path_iff hx hy).1 ?_, fun h => by rw [path_eq hx, path_eq hy, h]⟩
  rw [h, FilePath.same, beq_self_eq_true]

lemma place_eq_iff {o : OutputDirectory} (hx : x.IsNamed) (hy : y.IsNamed) :
    x.place o = y.place o ↔ x.path = y.path := by
  rw [path_eq_iff hx hy, place, place, List.append_cancel_left_eq]

lemma place_ne_nil (x : Deposit) (o : OutputDirectory) : x.place o ≠ [] := by
  simp [place, names, DeclaringType.fileNames]

lemma cutLast_path (h : x.IsNamed) :
    cutLast x.path = (before x.type.packages, x.type.fileName x.suffix) := by
  rw [path_eq h]
  exact cutLast_through (DeclaringType.isPlain_fileName h.type h.suffix) _

lemma getLast?_path (h : x.IsNamed) : x.path.toList.getLast? ≠ some '/' := by
  rw [path_eq h, names, DeclaringType.fileNames, through_concat, String.toList_append]
  exact (DeclaringType.isPlain_fileName h.type h.suffix).getLast?_ne _

/-- The path leads to the place of the helper, if anywhere. -/
lemma place_eq_of_locates {o : OutputDirectory} (h : x.IsNamed) {t : FileTree} {place : Place}
    (hr : t.Locates o.base x.path place) : place = x.place o := by
  obtain ⟨-, ⟨up, hup, rfl⟩, -, -⟩ := hr
  rw [cutLast_path h] at hup ⊢
  rw [FileTree.walk_before_plain (DeclaringType.isPlain_packages h.type) hup, List.append_assoc]
  rfl

end

/-! ### One deposit -/

/-- What comes of writing a helper to its file, and what the file holds then. -/
def filled (x : Deposit) (o : OutputDirectory) (m : Medium) : Except IoError Unit × List UInt8 :=
  m.fill (x.place o) [] x.pieces

lemma prefix_filled (x : Deposit) (o : OutputDirectory) (m : Medium) :
    (x.filled o m).2 <+: x.bytes :=
  m.prefix_fill (x.place o) [] x.pieces

lemma filled_of_ok {x : Deposit} {o : OutputDirectory} {m : Medium}
    (h : (x.filled o m).1 = .ok ()) : (x.filled o m).2 = x.bytes :=
  Medium.fill_of_ok h

/-- Whether the file of a deposit is created, whatever becomes of its bytes. -/
def isGranted (x : Deposit) (o : OutputDirectory) (m : Medium) (w : Output) : Bool :=
  (((o.sink m).create x.helper x.type).run.run w).1.toOption.isSome

/-- What a deposit may come to. -/
inductive Ends (o : OutputDirectory) (m : Medium) (w : Output) (x : Deposit) :
    Except IoError Unit × Output → Prop
  | owned (owner : String) (hgranted : x.isGranted o m w = false)
      (h : w.owner? x.path = some owner) :
      Ends o m w x (.error (refusal (join o.path x.path) x.helper.artifact owner), w)
  | failed (e : IoError) (tree : FileTree) (hgranted : x.isGranted o m w = false)
      (h : w.owner? x.path = none) (hgrows : w.tree.Grows tree) :
      Ends o m w x (.error e, ⟨tree, w.created⟩)
  | stored (tree : FileTree) (hgranted : x.isGranted o m w = true) (h : w.owner? x.path = none)
      (hgrows : w.tree.Grows tree) (hlocates : tree.Locates o.base x.path (x.place o))
      (hdirectory : tree.get? (x.place o) ≠ some .directory) :
      Ends o m w x ((x.filled o m).1, ⟨tree.put (x.place o) (.file (x.filled o m).2),
        w.created ++ [(x.path, x.helper.artifact)]⟩)

variable (o : OutputDirectory) (m : Medium) {x : Deposit} (w : Output)

lemma run_create_of_owned {owner : String} (h : w.owner? x.path = some owner) :
    ((o.sink m).create x.helper x.type).run.run w =
      (.error (refusal (join o.path x.path) x.helper.artifact owner), w) := by
  change (o.create m x.helper x.type).run.run w = _
  unfold create
  dsimp only
  rw [Act.run_bind, Act.run_get]
  dsimp only
  change w.owner? (relativePath x.helper x.type) = some owner at h
  rw [h]
  rfl

/-- What the creation of a helper may come to, where the path is free. -/
inductive Opens (o : OutputDirectory) (m : Medium) (w : Output) (x : Deposit) :
    Except IoError (Channel Output) × Output → Prop
  | failed (e : IoError) (tree : FileTree) (hgrows : w.tree.Grows tree) :
      Opens o m w x (.error e, ⟨tree, w.created⟩)
  | opened (tree : FileTree) (hgrows : w.tree.Grows tree)
      (hlocates : tree.Locates o.base x.path (x.place o))
      (hdirectory : tree.get? (x.place o) ≠ some .directory) :
      Opens o m w x (.ok (channel m (x.place o)), ⟨tree.put (x.place o) (.file []),
        w.created ++ [(x.path, x.helper.artifact)]⟩)

lemma Opens.of_grows {o : OutputDirectory} {m : Medium} {w : Output} {tree : FileTree}
    {r : Except IoError (Channel Output) × Output} (hgrows : w.tree.Grows tree)
    (h : Opens o m ⟨tree, w.created⟩ x r) : Opens o m w x r := by
  cases h with
  | failed e tree' hgrows' => exact .failed e tree' (hgrows.trans hgrows')
  | opened tree' hgrows' hlocates hd => exact .opened tree' (hgrows.trans hgrows') hlocates hd

/-- How the creation of a helper goes on, once the directories are there. -/
def finish (o : OutputDirectory) (m : Medium) (x : Deposit) : Act Output (Channel Output) := do
  let place ← Output.onTree (FileTree.openEmpty o.base x.path)
  modify fun output => { output with created := output.created ++ [(x.path, x.helper.artifact)] }
  return channel m place

lemma opens_finish (hx : x.IsNamed) : Opens o m w x ((finish o m x).run.run w) := by
  unfold finish
  rw [Act.run_bind, Output.run_onTree]
  rcases FileTree.openEmpty_cases o.base x.path w.tree with
    ⟨e, hrun⟩ | ⟨place, hlocates, hd, hrun⟩
  · rw [hrun]
    exact .failed e w.tree (.refl _)
  · obtain rfl := place_eq_of_locates hx hlocates
    rw [hrun]
    exact .opened w.tree (.refl _) hlocates hd

lemma run_create_of_free (h : w.owner? x.path = none) :
    ((o.sink m).create x.helper x.type).run.run w =
      ((parent? x.path).elim (finish o m x) fun up =>
        if up ≠ "" then
          Output.onTree (FileTree.ensureDirectories o.base up) >>= fun _ => finish o m x
        else finish o m x).run.run w := by
  change (o.create m x.helper x.type).run.run w = _
  unfold create finish
  dsimp only
  rw [Act.run_bind, Act.run_get]
  dsimp only
  change w.owner? (relativePath x.helper x.type) = none at h
  rw [h]
  dsimp only
  unfold path
  cases parent? (relativePath x.helper x.type) <;> rfl

/-- A path that is free gets a new file, unless something is in the way. -/
lemma opens (hx : x.IsNamed) (h : w.owner? x.path = none) :
    Opens o m w x (((o.sink m).create x.helper x.type).run.run w) := by
  rw [run_create_of_free o m w h]
  cases parent? x.path with
  | none => exact opens_finish o m w hx
  | some up =>
    rw [Option.elim_some]
    by_cases hempty : up ≠ ""
    · rw [if_pos hempty, Act.run_bind, Output.run_onTree]
      have hgrows := FileTree.onlyGrows_ensureDirectories (b := o.base) up w.tree
      cases hr : (FileTree.ensureDirectories o.base up).run.run w.tree with
      | mk r tree =>
        rw [hr] at hgrows
        cases r with
        | error e => exact .failed e tree hgrows
        | ok _ => exact .of_grows hgrows (opens_finish o m ⟨tree, w.created⟩ hx)
    · rw [if_neg hempty]
      exact opens_finish o m w hx

lemma isGranted_eq {r : Except IoError (Channel Output)} {w' : Output}
    (h : ((o.sink m).create x.helper x.type).run.run w = (r, w')) :
    x.isGranted o m w = r.toOption.isSome := by
  unfold isGranted
  rw [h]

/-- A deposit that is not created has come to its end. -/
lemma perform_of_refused {e : IoError} {w' : Output}
    (h : ((o.sink m).create x.helper x.type).run.run w = (.error e, w')) :
    (x.perform (o.sink m)).run.run w = (.error e, w') := by
  unfold perform
  rw [Act.run_bind, h]

/-- **What becomes of a deposit.** -/
lemma ends (hx : x.IsNamed) : Ends o m w x ((x.perform (o.sink m)).run.run w) := by
  cases h : w.owner? x.path with
  | some owner =>
    have hcreate := run_create_of_owned o m w h
    rw [perform_of_refused o m w hcreate]
    exact .owned owner (isGranted_eq o m w hcreate) h
  | none =>
    have hopens := opens o m w hx h
    cases hr : ((o.sink m).create x.helper x.type).run.run w with
    | mk r output =>
      rw [hr] at hopens
      cases hopens with
      | failed e tree hgrows =>
        rw [perform_of_refused o m w hr]
        exact .failed e tree (isGranted_eq o m w hr) h hgrows
      | opened tree hgrows hlocates hd =>
        unfold perform
        rw [Act.run_bind, hr]
        dsimp only
        rw [m.run_fill (x.place_ne_nil o)]
        exact .stored tree (isGranted_eq o m w hr) h hgrows hlocates hd

/-- A creation that is refused changes no file and not what has been created. -/
lemma unchanged_of_refused (hx : x.IsNamed) {e : IoError} {w' : Output}
    (h : ((o.sink m).create x.helper x.type).run.run w = (.error e, w')) :
    w'.created = w.created ∧ ∀ place bytes,
      w'.tree.get? place = some (.file bytes) ↔ w.tree.get? place = some (.file bytes) := by
  have hends := ends o m w hx
  rw [perform_of_refused o m w h] at hends
  generalize hresult : (Except.error e, w') = result at hends
  cases hends with
  | owned owner hgranted howner =>
    cases hresult
    exact ⟨rfl, fun _ _ => Iff.rfl⟩
  | failed e tree hgranted hnone hgrows =>
    cases hresult
    exact ⟨rfl, fun place _ => (hgrows place).file_iff⟩
  | stored tree hgranted =>
    rw [isGranted_eq o m w h] at hgranted
    cases hgranted

/-- A deposit that is created adds its own path, and changes no file but its own, whether or not
its bytes are taken. -/
lemma adds_of_granted (hx : x.IsNamed) {c : Channel Output} {w₀ : Output}
    (h : ((o.sink m).create x.helper x.type).run.run w = (.ok c, w₀)) :
    ∃ w', (x.perform (o.sink m)).run.run w = ((x.filled o m).1, w') ∧ w.owner? x.path = none ∧
      w'.created = w.created ++ [(x.path, x.helper.artifact)] ∧
      (∀ place, place ≠ x.place o → ∀ bytes,
        w'.tree.get? place = some (.file bytes) ↔ w.tree.get? place = some (.file bytes)) ∧
      w'.tree.get? (x.place o) = some (.file (x.filled o m).2) := by
  have hgranted : x.isGranted o m w = true := isGranted_eq o m w h
  have hends := ends o m w hx
  generalize (x.perform (o.sink m)).run.run w = result at hends ⊢
  cases hends with
  | owned owner hrefused =>
    rw [hgranted] at hrefused
    cases hrefused
  | failed e tree hrefused =>
    rw [hgranted] at hrefused
    cases hrefused
  | stored tree _ hnone hgrows hlocates hd =>
    have hput := fun p => FileTree.get?_put (x.place_ne_nil o) p (.file (x.filled o m).2) tree
    refine ⟨_, rfl, hnone, rfl, fun place hne bytes => ?_, ?_⟩
    · rw [hput, if_neg hne, (hgrows place).file_iff]
    · rw [hput, if_pos rfl]

/-! ### Many deposits -/

/-- Where some deposits have led to, each with how files have taken its bytes, and which of them
have got a file. -/
structure Progress where
  stored : List (Deposit × Medium)
  output : Output

def next (o : OutputDirectory) (s : Progress) (x : Deposit × Medium) : Progress where
  stored := if x.1.isGranted o x.2 s.output then s.stored ++ [x] else s.stored
  output := ((x.1.perform (o.sink x.2)).run.run s.output).2

/-- Performs some deposits in a directory that is new to the run. -/
def performAll (o : OutputDirectory) (tree : FileTree) (xs : List (Deposit × Medium)) : Progress :=
  xs.foldl (next o) ⟨[], ⟨tree, []⟩⟩

/-- What is known of the deposits that have got a file since the files were as in `start`. -/
structure Kept (o : OutputDirectory) (start : FileTree) (s : Progress) : Prop where
  named : ∀ x ∈ s.stored, x.1.IsNamed
  nodup : (s.stored.map (·.1.path)).Nodup
  created : s.output.created = s.stored.map fun x => (x.1.path, x.1.helper.artifact)
  reached : ∀ x ∈ s.stored, s.output.tree.Locates o.base x.1.path (x.1.place o)
  held : ∀ x ∈ s.stored, s.output.tree.get? (x.1.place o) = some (.file (x.1.filled o x.2).2)
  others : ∀ place, (∀ x ∈ s.stored, place ≠ x.1.place o) →
    FileTree.GrowsAt start s.output.tree place

namespace Kept

variable {o} {start : FileTree} {s : Progress}

lemma path_ne_of_owner?_eq_none (h : Kept o start s) (hnone : s.output.owner? x.path = none) :
    ∀ y ∈ s.stored, y.1.path ≠ x.path := by
  intro y hy hpath
  unfold Output.owner? at hnone
  rw [Option.map_eq_none_iff, h.created, List.find?_eq_none] at hnone
  refine hnone (y.1.path, y.1.helper.artifact) (List.mem_map.2 ⟨y, hy, rfl⟩) ?_
  dsimp only
  rw [hpath, FilePath.same, beq_self_eq_true]

lemma exists_of_owner? (h : Kept o start s) (hx : x.IsNamed) {owner : String}
    (howner : s.output.owner? x.path = some owner) :
    ∃ y ∈ s.stored, y.1.path = x.path ∧ y.1.helper.artifact = owner := by
  unfold Output.owner? at howner
  rw [h.created] at howner
  obtain ⟨e, he, rfl⟩ := Option.map_eq_some_iff.1 howner
  have hsame : FilePath.same e.1 x.path = true := by simpa using List.find?_some he
  obtain ⟨y, hy, rfl⟩ := List.mem_map.1 (List.mem_of_find?_eq_some he)
  dsimp only at hsame
  rw [same_path_iff (h.named y hy) hx, ← path_eq_iff (h.named y hy) hx] at hsame
  exact ⟨y, hy, hsame, rfl⟩

/-- A path has the owner that has been stored there. -/
lemma owner?_of_mem (h : Kept o start s) (hx : x.IsNamed) {y : Deposit × Medium}
    (hy : y ∈ s.stored) (hpath : y.1.path = x.path) :
    s.output.owner? x.path = some y.1.helper.artifact := by
  cases howner : s.output.owner? x.path with
  | none => exact absurd hpath (h.path_ne_of_owner?_eq_none howner y hy)
  | some owner =>
    obtain ⟨z, hz, hzx, rfl⟩ := h.exists_of_owner? hx howner
    rw [List.inj_on_of_nodup_map h.nodup hz hy (hzx.trans hpath.symm)]

/-- More directories change nothing of what is known. -/
lemma grow (h : Kept o start s) {tree : FileTree} (hgrows : s.output.tree.Grows tree) :
    Kept o start ⟨s.stored, ⟨tree, s.output.created⟩⟩ where
  named := h.named
  nodup := h.nodup
  created := h.created
  reached y hy := (h.reached y hy).mono fun p => (hgrows p).directory
  held y hy := (hgrows _).file_iff.2 (h.held y hy)
  others place hplace := (h.others place hplace).trans (hgrows place)

/-- One more helper in a file of its own. -/
lemma store (h : Kept o start s) (hx : x.IsNamed) (hnone : s.output.owner? x.path = none)
    (hlocates : s.output.tree.Locates o.base x.path (x.place o))
    (hd : s.output.tree.get? (x.place o) ≠ some .directory) :
    Kept o start ⟨s.stored ++ [(x, m)],
      ⟨s.output.tree.put (x.place o) (.file (x.filled o m).2),
        s.output.created ++ [(x.path, x.helper.artifact)]⟩⟩ := by
  have hpath := h.path_ne_of_owner?_eq_none hnone
  have hput : ∀ p, (s.output.tree.put (x.place o) (.file (x.filled o m).2)).get? p =
      if p = x.place o then some (.file (x.filled o m).2) else s.output.tree.get? p :=
    fun p => FileTree.get?_put (x.place_ne_nil o) p _ _
  have hdirs : ∀ p, s.output.tree.get? p = some .directory →
      (s.output.tree.put (x.place o) (.file (x.filled o m).2)).get? p = some .directory := by
    intro p hp
    rw [hput, if_neg, hp]
    rintro rfl
    exact hd hp
  have hall : ∀ {P : Deposit × Medium → Prop}, (∀ y ∈ s.stored, P y) → P (x, m) →
      ∀ y ∈ s.stored ++ [(x, m)], P y :=
    fun hold hnew => List.forall_mem_append.2 ⟨hold, List.forall_mem_singleton.2 hnew⟩
  refine ⟨hall h.named hx, ?_, ?_, ?_, ?_, fun place hplace => ?_⟩
  · rw [List.map_append, List.nodup_append]
    refine ⟨h.nodup, List.nodup_singleton _, fun p hp q hq => ?_⟩
    obtain ⟨y, hy, rfl⟩ := List.mem_map.1 hp
    rw [List.mem_singleton.1 hq]
    exact hpath y hy
  · rw [h.created, List.map_append, List.map_singleton]
  · exact hall (fun y hy => (h.reached y hy).mono hdirs) (hlocates.mono hdirs)
  · refine hall (fun y hy => ?_) ?_
    · rw [hput, if_neg fun he => hpath y hy ((place_eq_iff (h.named y hy) hx).1 he)]
      exact h.held y hy
    · rw [hput, if_pos rfl]
  · have hold : FileTree.GrowsAt start s.output.tree place :=
      h.others place fun y hy => hplace y (List.mem_append_left _ hy)
    have hne : place ≠ x.place o := hplace (x, m) (by simp)
    unfold FileTree.GrowsAt at hold ⊢
    rw [hput, if_neg hne]
    exact hold

end Kept

/-- **A deposit leaves what is known of the others.** -/
lemma Kept.next {start : FileTree} {s : Progress} (h : Kept o start s) (hx : x.IsNamed) :
    Kept o start (next o s (x, m)) := by
  have hends := ends o m s.output hx
  unfold Deposit.next
  dsimp only
  cases hr : (x.perform (o.sink m)).run.run s.output with
  | mk r output =>
    rw [hr] at hends
    cases hends with
    | owned owner hgranted howner =>
      rw [hgranted]
      exact h
    | failed e tree hgranted hnone hgrows =>
      rw [hgranted]
      exact h.grow hgrows
    | stored tree hgranted hnone hgrows hlocates hd =>
      rw [hgranted]
      exact (h.grow hgrows).store m hx hnone hlocates hd

lemma kept_performAll (tree : FileTree) {xs : List (Deposit × Medium)}
    (hxs : ∀ x ∈ xs, x.1.IsNamed) : Kept o tree (performAll o tree xs) := by
  have hfold : ∀ s, Kept o tree s → Kept o tree (xs.foldl (next o) s) := by
    induction xs with
    | nil => exact fun s hs => hs
    | cons x xs ih =>
      rw [List.forall_mem_cons] at hxs
      exact fun s hs => ih hxs.2 _ (hs.next o x.2 hxs.1)
  exact hfold _ ⟨by simp, by simp, rfl, by simp, by simp, fun _ _ => .inl rfl⟩

/-- What is said of a path that has been used. -/
lemma refusal_message (path artifact owner : String) :
    (refusal path artifact owner).kind = .alreadyExists ∧
      ((refusal path artifact owner).message = path ++ " was already generated in this run" ↔
        owner = artifact) ∧
      (owner ≠ artifact →
        (refusal path artifact owner).message = path ++ " is already used by " ++ owner) := by
  unfold refusal
  refine ⟨rfl, ?_, fun hne => if_neg hne⟩
  by_cases howner : owner = artifact
  · exact iff_of_true (if_pos howner) howner
  · refine iff_of_false (fun hm => ?_) howner
    rw [if_neg howner, String.append_assoc, String.append_right_inj] at hm
    -- the two messages part in their second letter
    have hletters := congrArg (fun t : String => t.toList.take 2) hm
    simp at hletters

/-- **No helper is overwritten in a run.** Let an output directory be opened, whatever it holds,
and let helpers be created, written and flushed in it one after another, each with files that take
its bytes in some way. Each path is used at most once. From then on it is refused, with the artifact
that has it being named unless it is the same one. A helper whose creation is refused, for any
reason, changes no file and not what has been created. One that is created adds its own path, which
nobody had, and whether or not its bytes are taken, no other file changes; its own file holds them
all, or if some are refused, no more than the beginning. In the end each path holds what was taken
from the one that got it; and at every other place there is what was there before the directory was
opened, or a directory where nothing was. -/
theorem stored_once {b : Base} {root : String} {o : OutputDirectory} {start tree : FileTree}
    (hopen : (openAt b root).run.run start = (.ok o, tree)) {xs : List (Deposit × Medium)}
    (hxs : ∀ x ∈ xs, x.1.IsNamed) :
    let s := performAll o tree xs
    (s.stored.map (·.1.path)).Nodup ∧
      s.output.created = s.stored.map (fun x => (x.1.path, x.1.helper.artifact)) ∧
      (∀ x : Deposit, x.IsNamed → ∀ m, ∀ y ∈ s.stored, y.1.path = x.path → ∃ message,
        ((o.sink m).create x.helper x.type).run.run s.output =
            (.error ⟨.alreadyExists, message⟩, s.output) ∧
          (message = join o.path x.path ++ " was already generated in this run" ↔
            y.1.helper.artifact = x.helper.artifact) ∧
          (y.1.helper.artifact ≠ x.helper.artifact →
            message = join o.path x.path ++ " is already used by " ++ y.1.helper.artifact)) ∧
      (∀ x : Deposit, x.IsNamed → ∀ m e w,
        ((o.sink m).create x.helper x.type).run.run s.output = (.error e, w) →
          (x.perform (o.sink m)).run.run s.output = (.error e, w) ∧
            w.created = s.output.created ∧ ∀ place bytes,
              w.tree.get? place = some (.file bytes) ↔
                s.output.tree.get? place = some (.file bytes)) ∧
      (∀ x : Deposit, x.IsNamed → ∀ m c w₀,
        ((o.sink m).create x.helper x.type).run.run s.output = (.ok c, w₀) →
        ∃ r w left, (x.perform (o.sink m)).run.run s.output = (r, w) ∧
          (∀ y ∈ s.stored, y.1.path ≠ x.path) ∧
          w.created = s.output.created ++ [(x.path, x.helper.artifact)] ∧
          (∀ place, place ≠ x.place o → ∀ bytes, w.tree.get? place = some (.file bytes) ↔
            s.output.tree.get? place = some (.file bytes)) ∧
          w.tree.get? (x.place o) = some (.file left) ∧ (r, left) = x.filled o m ∧
          left <+: x.bytes ∧ (r = .ok () → left = x.bytes)) ∧
      (∀ x ∈ s.stored, ∃ r left, (r, left) = x.1.filled o x.2 ∧
        s.output.tree.file? o.base x.1.path = some left ∧
        s.output.tree.get? (x.1.place o) = some (.file left) ∧
        left <+: x.1.bytes ∧ (r = .ok () → left = x.1.bytes)) ∧
      ∀ place, (∀ x ∈ s.stored, place ≠ x.1.place o) → start.GrowsAt s.output.tree place := by
  intro s
  have h : Kept o tree s := kept_performAll o tree hxs
  have hgrows := FileTree.onlyGrows_openAt (b := b) root start
  rw [hopen] at hgrows
  refine ⟨h.nodup, h.created, ?_, ?_, ?_, ?_, ?_⟩
  · intro x hx m y hy hpath
    obtain ⟨hkind, hmessage⟩ :=
      refusal_message (join o.path x.path) x.helper.artifact y.1.helper.artifact
    refine ⟨_, ?_, hmessage⟩
    rw [← hkind]
    exact run_create_of_owned o m s.output (h.owner?_of_mem hx hy hpath)
  · intro x hx m e w hr
    exact ⟨perform_of_refused o m s.output hr, unchanged_of_refused o m s.output hx hr⟩
  · intro x hx m c w₀ hcreate
    obtain ⟨w, hrun, hnone, hadds⟩ := adds_of_granted o m s.output hx hcreate
    exact ⟨_, w, _, hrun, h.path_ne_of_owner?_eq_none hnone, hadds.1, hadds.2.1, hadds.2.2, rfl,
      x.prefix_filled o m, filled_of_ok⟩
  · intro x hx
    exact ⟨_, _, rfl, (h.reached x hx).file?_eq (getLast?_path (h.named x hx)) (h.held x hx),
      h.held x hx, x.1.prefix_filled o x.2, filled_of_ok⟩
  · intro place hplace
    exact (hgrows place).trans (h.others place hplace)

/-- A class whose name looks like the path to another one, and a stale file in their place. The
first one gets the file, and is named when the other one and itself come later. A third class has a
file of its own, which takes two bytes and no more. -/
theorem stored_once_flattened_names :
    let start : FileTree := [(["out"], .directory), (["out", "a"], .directory),
      (["out", "a", "Outer$Inner.java"], .file [9]), (["out", "note"], .file [8])]
    let o : OutputDirectory := ⟨"out", ["out"]⟩
    let flat : Deposit := ⟨⟨"a", "Outer$Inner"⟩, "", [[1], [2]]⟩
    let nested : Deposit := ⟨⟨"a", "Outer.Inner"⟩, "", [[3]]⟩
    let long : Deposit := ⟨⟨"a", "B"⟩, "", [[4], [5, 6]]⟩
    let full : Medium := ⟨fun _ held bytes => if 2 < (held ++ bytes).length then
      some ⟨2, ⟨.other, "No space left on device (os error 28)"⟩⟩ else none, fun _ _ => none⟩
    let xs := [(flat, .willing), (nested, .willing), (long, full)]
    let s := performAll o start xs
    (openAt ⟨[], false⟩ "out").run.run start = (.ok o, start) ∧
      (∀ x ∈ xs, x.1.IsNamed) ∧
      s.output.created = [("a/Outer$Inner.java", "a.Outer$Inner"), ("a/B.java", "a.B")] ∧
      ((o.sink full).create nested.helper nested.type).run.run s.output =
        (.error ⟨.alreadyExists, "out/a/Outer$Inner.java is already used by a.Outer$Inner"⟩,
          s.output) ∧
      ((o.sink full).create flat.helper flat.type).run.run s.output =
        (.error ⟨.alreadyExists, "out/a/Outer$Inner.java was already generated in this run"⟩,
          s.output) ∧
      s.output.tree.file? o.base "a/Outer$Inner.java" = some [1, 2] ∧
      s.output.tree.file? o.base "a/B.java" = some [4, 5] ∧
      s.output.tree.get? ["out", "note"] = some (.file [8]) := by
  intro start o flat nested long full xs s
  have hopen : (openAt ⟨[], false⟩ "out").run.run start = (.ok o, start) := rfl
  have hnamed : flat.IsNamed ∧ nested.IsNamed ∧ long.IsNamed :=
    ⟨⟨by decide, by decide⟩, ⟨by decide, by decide⟩, ⟨by decide, by decide⟩⟩
  have hxs : ∀ x ∈ xs, x.1.IsNamed := by simpa [xs] using hnamed
  obtain ⟨-, hcreated, hrefused, -, -, hfiles, hothers⟩ := stored_once hopen hxs
  -- files cannot be compared by how they take bytes, only by what they hold
  have hstored : s.stored.map (fun x => (x.1, (x.1.filled o x.2).2)) =
      [(flat, [1, 2]), (long, [4, 5])] := by decide +kernel
  have hmem : ∀ x left, (x, left) ∈ [(flat, [1, 2]), (long, [4, 5])] →
      ∃ m, (x, m) ∈ s.stored ∧ (x.filled o m).2 = left := by
    intro x left h
    rw [← hstored] at h
    obtain ⟨⟨y, m⟩, hy, he⟩ := List.mem_map.1 h
    cases he
    exact ⟨m, hy, rfl⟩
  have hfile : ∀ x left, (x, left) ∈ [(flat, [1, 2]), (long, [4, 5])] →
      s.output.tree.file? o.base x.path = some left := by
    intro x left h
    obtain ⟨m, hm, rfl⟩ := hmem x left h
    obtain ⟨r, left, hleft, hfile, -⟩ := hfiles _ hm
    rw [hfile, ← hleft]
  obtain ⟨m, hflat, -⟩ := hmem flat [1, 2] (by simp)
  have hpaths : flat.path = "a/Outer$Inner.java" ∧ nested.path = flat.path ∧
      long.path = "a/B.java" := by decide +kernel
  have hother : flat.helper.artifact ≠ nested.helper.artifact := by decide +kernel
  have hsay : join o.path nested.path ++ " is already used by " ++ flat.helper.artifact =
      "out/a/Outer$Inner.java is already used by a.Outer$Inner" ∧
      join o.path flat.path ++ " was already generated in this run" =
        "out/a/Outer$Inner.java was already generated in this run" := by decide +kernel
  refine ⟨hopen, hxs, ?_, ?_, ?_, ?_, ?_, ?_⟩
  · have hlist := congrArg (List.map fun x => (x.1.path, x.1.helper.artifact)) hstored
    rw [List.map_map] at hlist
    exact hcreated.trans (hlist.trans (by decide +kernel))
  · obtain ⟨message, hrun, -, hmessage⟩ :=
      hrefused nested hnamed.2.1 full (flat, m) hflat hpaths.2.1.symm
    rw [hrun, hmessage hother, hsay.1]
  · obtain ⟨message, hrun, hsame, -⟩ := hrefused flat hnamed.1 full (flat, m) hflat rfl
    rw [hrun, hsame.2 rfl, hsay.2]
  · rw [← hpaths.1]
    exact hfile flat [1, 2] (by simp)
  · rw [← hpaths.2.2]
    exact hfile long [4, 5] (by simp)
  · refine (hothers ["out", "note"] fun x hx => ?_).file_iff.2 rfl
    have hmapped := List.mem_map_of_mem (f := fun x => (x.1, (x.1.filled o x.2).2)) hx
    rw [hstored] at hmapped
    have hplaces : ["out", "note"] ≠ flat.place o ∧ ["out", "note"] ≠ long.place o := by
      decide +kernel
    rcases List.mem_pair.1 hmapped with he | he
    · rw [(Prod.mk.inj he).1]
      exact hplaces.1
    · rw [(Prod.mk.inj he).1]
      exact hplaces.2

end Deposit

end SavedState
