import SavedState.Proofs.DirectoryWriting
import SavedState.Proofs.Reading

/-!
Trees that grow.

Making sure of directories adds directories where nothing was, whatever the paths are and wherever
it stops, and does nothing else. So files keep their bytes; and a path that leads to a file leads
there ever after, since the directories on the way stay.
-/

namespace SavedState

open FilePath

namespace Act

variable {σ α β : Type} {P : σ → Prop}

/-- An action that comes to a value has come to one in both of its parts. -/
lemma bind_eq_ok {x : Act σ α} {f : α → Act σ β} {b : β} {w w' : σ}
    (h : (x >>= f).run.run w = (.ok b, w')) :
    ∃ a w₁, x.run.run w = (.ok a, w₁) ∧ (f a).run.run w₁ = (.ok b, w') := by
  rw [run_bind] at h
  cases hx : x.run.run w with
  | mk r w₁ =>
    rw [hx] at h
    cases r with
    | error e => cases h
    | ok a => exact ⟨a, w₁, rfl, h⟩

/-- What holds of a world holds of it after an action, also where that fails. -/
def Preserves (act : Act σ α) (P : σ → Prop) : Prop := ∀ w, P w → P (act.run.run w).2

lemma preserves_pure (a : α) : Preserves (pure a : Act σ α) P := fun _ h => h

lemma preserves_throw (e : IoError) : Preserves (throw e : Act σ α) P := fun _ h => h

lemma preserves_get : Preserves (get : Act σ σ) P := fun _ h => h

lemma preserves_liftExcept (x : Except IoError α) : Preserves (liftExcept x : Act σ α) P := by
  intro w h
  rw [run_liftExcept]
  exact h

lemma Preserves.bind {x : Act σ α} {f : α → Act σ β} (hx : x.Preserves P)
    (hf : ∀ a, (f a).Preserves P) : Preserves (x >>= f) P := by
  intro w h
  have hfirst := hx w h
  rw [run_bind]
  cases hr : x.run.run w with
  | mk r w' =>
    rw [hr] at hfirst
    cases r with
    | error e => exact hfirst
    | ok a => exact hf a w' hfirst

lemma Preserves.tryCatch {x : Act σ α} {f : IoError → Act σ α} (hx : x.Preserves P)
    (hf : ∀ e, (f e).Preserves P) : Preserves (tryCatch x f) P := by
  intro w h
  have hfirst := hx w h
  rw [run_tryCatch]
  cases hr : x.run.run w with
  | mk r w' =>
    rw [hr] at hfirst
    cases r with
    | error e => exact hf e w' hfirst
    | ok a => exact hfirst

end Act

namespace FileTree

/-- What stands at a place is what stood there, or a directory where nothing was. -/
def GrowsAt (t t' : FileTree) (place : Place) : Prop :=
  t'.get? place = t.get? place ∨ t.get? place = none ∧ t'.get? place = some .directory

/-- Nothing has changed but that there are more directories. -/
def Grows (t t' : FileTree) : Prop := ∀ place, t.GrowsAt t' place

namespace GrowsAt

variable {t t' t'' : FileTree} {place : Place}

lemma trans (h : t.GrowsAt t' place) (h' : t'.GrowsAt t'' place) : t.GrowsAt t'' place := by
  rcases h' with h' | ⟨hnone, hdir⟩
  · unfold GrowsAt
    rw [h']
    exact h
  · refine .inr ⟨?_, hdir⟩
    rcases h with h | ⟨-, h⟩
    · rw [← h, hnone]
    · rw [hnone] at h
      cases h

lemma file_iff (h : t.GrowsAt t' place) {bytes : List UInt8} :
    t'.get? place = some (.file bytes) ↔ t.get? place = some (.file bytes) := by
  rcases h with h | ⟨hnone, hdir⟩
  · rw [h]
  · rw [hnone, hdir]
    exact iff_of_false nofun nofun

lemma directory (h : t.GrowsAt t' place) (hd : t.get? place = some .directory) :
    t'.get? place = some .directory := by
  rcases h with h | ⟨-, hdir⟩
  · rw [h, hd]
  · exact hdir

end GrowsAt

namespace Grows

variable {t t' t'' : FileTree} {place : Place}

lemma refl (t : FileTree) : t.Grows t := fun _ => .inl rfl

lemma trans (h : t.Grows t') (h' : t'.Grows t'') : t.Grows t'' :=
  fun place => (h place).trans (h' place)

lemma put_directory (hnone : t.get? place = none) : t.Grows (t.put place .directory) := by
  have hne : place ≠ [] := by
    rintro rfl
    cases hnone
  intro q
  unfold GrowsAt
  rw [get?_put hne]
  split
  · rename_i hq
    exact .inr ⟨hq ▸ hnone, rfl⟩
  · exact .inl rfl

end Grows

/-! ### Making directories -/

/-- An action that leaves a tree as it is, or with more directories, also where it fails. -/
def OnlyGrows {α : Type} (act : Act FileTree α) : Prop := ∀ t : FileTree, t.Grows (act.run.run t).2

variable {b : Base}

lemma find_eq_ok {t : FileTree} {place : Place} {name : String} {x : Option FileEntry}
    (h : t.find b place name = .ok x) :
    x = t.get? (place ++ [name]) ∧ ∀ (t' : FileTree) (place' : Place),
      t'.find b place' name = .ok (t'.get? (place' ++ [name])) := by
  unfold find at h ⊢
  split at h
  · cases h
  · split at h
    · cases h
    · rename_i hnul hlength
      cases h
      refine ⟨rfl, fun t' place' => ?_⟩
      rw [if_neg hnul, if_neg hlength]

variable (b) in
/-- What comes of making a directory. Nothing happens, or there is a directory where nothing
was. -/
lemma makeDirectory_cases (path : String) (t : FileTree) :
    (∃ r, (makeDirectory b path).run.run t = (r, t)) ∨
      ∃ up, t.walk b (cutLast path).1 = .ok up ∧ t.get? (up ++ [(cutLast path).2]) = none ∧
        (makeDirectory b path).run.run t =
          (.ok (), t.put (up ++ [(cutLast path).2]) .directory) := by
  unfold makeDirectory
  rw [Act.run_bind, Act.run_get]
  dsimp only
  rw [Act.run_bind, Act.run_liftExcept]
  cases permit b (if isDots (cutLast path).2 then path else (parent? path).getD "") with
  | error e => exact .inl ⟨_, rfl⟩
  | ok _ =>
    dsimp only
    rw [Act.run_bind, Act.run_liftExcept]
    cases hup : t.walk b (if isDots (cutLast path).2 then path else (cutLast path).1) with
    | error e => exact .inl ⟨_, rfl⟩
    | ok up =>
      dsimp only
      by_cases hdots : isDots (cutLast path).2 = true
      · rw [if_pos hdots]
        exact .inl ⟨_, rfl⟩
      · rw [if_neg hdots] at hup ⊢
        rw [Act.run_bind, Act.run_liftExcept]
        cases hf : t.find b up (cutLast path).2 with
        | error e => exact .inl ⟨_, rfl⟩
        | ok x =>
          cases x with
          | some entry => exact .inl ⟨_, rfl⟩
          | none => exact .inr ⟨up, hup, (find_eq_ok hf).1.symm, rfl⟩

section

variable {P : FileTree → Prop} (h : ∀ path, (makeDirectory b path).Preserves P) (path : String)

include h

lemma preserves_ensureDirectory : (ensureDirectory b path).Preserves P := by
  refine (h path).tryCatch fun e => Act.preserves_get.bind fun t => ?_
  split
  · exact Act.preserves_pure _
  · exact Act.preserves_throw _

/-- What making a directory preserves is preserved by making sure of many. -/
lemma preserves_ensureDirectories : (ensureDirectories b path).Preserves P := by
  have hchain : ∀ paths, (ensureChain b paths).Preserves P := by
    intro paths
    induction paths with
    | nil => exact Act.preserves_pure _
    | cons path above ih =>
      unfold ensureChain
      split
      · exact Act.preserves_pure _
      · refine (preserves_ensureDirectory h path).tryCatch fun e => ?_
        split
        · exact ih.bind fun _ => preserves_ensureDirectory h path
        · exact Act.preserves_throw _
  exact hchain _

lemma preserves_openAt : (OutputDirectory.openAt b path).Preserves P := by
  refine Act.preserves_get.bind fun t => ?_
  split
  · exact Act.preserves_pure _
  · split
    · refine (preserves_ensureDirectories h path).bind fun _ => Act.preserves_get.bind fun t' => ?_
      exact (Act.preserves_liftExcept _).bind fun _ => Act.preserves_pure _
    · exact Act.preserves_throw _

end

lemma preserves_grows (t : FileTree) (path : String) :
    (makeDirectory b path).Preserves t.Grows := by
  intro t' ht
  rcases makeDirectory_cases b path t' with ⟨r, hrun⟩ | ⟨up, -, hnone, hrun⟩
  · rw [hrun]
    exact ht
  · rw [hrun]
    exact ht.trans (.put_directory hnone)

/-- **Making directories only adds directories.** -/
lemma onlyGrows_ensureDirectories (path : String) : OnlyGrows (ensureDirectories b path) :=
  fun t => preserves_ensureDirectories (preserves_grows t) path t (.refl t)

lemma onlyGrows_openAt (path : String) : OnlyGrows (OutputDirectory.openAt b path) :=
  fun t => preserves_openAt (preserves_grows t) path t (.refl t)

/-! ### Following paths -/

section

variable {t t' : FileTree} {place q : Place} {path name : String} {names : List String}

lemma step_mono (hd : ∀ p, t.get? p = some .directory → t'.get? p = some .directory)
    (h : t.step b place name = .ok q) : t'.step b place name = .ok q := by
  unfold step at h ⊢
  split
  · rw [if_pos ‹_›] at h
    exact h
  · rw [if_neg ‹_›] at h
    split
    · rw [if_pos ‹_›] at h
      exact h
    · rw [if_neg ‹_›] at h
      obtain ⟨x, hx, h⟩ := bind_eq_ok h
      obtain ⟨rfl, hfind⟩ := find_eq_ok hx
      cases hg : t.get? (place ++ [name]) with
      | none =>
        rw [hg] at h
        cases h
      | some entry =>
        rw [hg] at h
        cases entry with
        | file bytes => cases h
        | directory =>
          rw [hfind t' place, hd _ hg]
          exact h

lemma foldlM_step_mono (hd : ∀ p, t.get? p = some .directory → t'.get? p = some .directory)
    (h : names.foldlM (t.step b) place = .ok q) : names.foldlM (t'.step b) place = .ok q := by
  induction names generalizing place with
  | nil => exact h
  | cons s names ih =>
    rw [List.foldlM_cons] at h ⊢
    obtain ⟨r, hr, h⟩ := bind_eq_ok h
    rw [step_mono hd hr]
    exact ih h

/-- What can be followed stays so while no directory is lost. -/
lemma walk_mono (hd : ∀ p, t.get? p = some .directory → t'.get? p = some .directory)
    (h : t.walk b path = .ok q) : t'.walk b path = .ok q := by
  obtain ⟨r, hr, h⟩ := bind_eq_ok h
  unfold walk
  rw [hr]
  exact foldlM_step_mono hd h

lemma step_plain (hp : IsPlain name) (h : t.step b place name = .ok q) : q = place ++ [name] := by
  unfold step at h
  rw [if_neg (not_or.2 ⟨hp.ne_empty, hp.ne_dot⟩), if_neg hp.ne_dots] at h
  obtain ⟨x, -, h⟩ := bind_eq_ok h
  cases x with
  | none => cases h
  | some entry =>
    cases entry with
    | file bytes => cases h
    | directory =>
      cases h
      rfl

lemma foldlM_step_plain (hp : ∀ s ∈ names, IsPlain s)
    (h : names.foldlM (t.step b) place = .ok q) : q = place ++ names := by
  induction names generalizing place with
  | nil =>
    cases h
    exact (List.append_nil _).symm
  | cons s names ih =>
    rw [List.forall_mem_cons] at hp
    rw [List.foldlM_cons] at h
    obtain ⟨r, hr, h⟩ := bind_eq_ok h
    rw [ih hp.2 h, step_plain hp.1 hr, List.append_assoc]
    rfl

/-- The way to the last of some plain names leads through just these names. -/
lemma walk_before_plain (hp : ∀ s ∈ names, IsPlain s) (h : t.walk b (before names) = .ok q) :
    q = b.place ++ names := by
  obtain ⟨r, hr, h⟩ := bind_eq_ok h
  have hstart : r = b.place := by
    unfold start at hr
    rw [isAbsolute_before hp, if_neg Bool.false_ne_true] at hr
    exact (Except.ok.inj hr).symm
  rw [parts_before fun s hs => (hp s hs).slash_not_mem, List.foldlM_append, hstart] at h
  obtain ⟨r', hr', h⟩ := bind_eq_ok h
  have hend : r' = q := Except.ok.inj h
  rw [← hend, foldlM_step_plain hp hr']

end

/-! ### Files at paths -/

/-- Whether a path leads to a place for a file: the directory that the place is in is there, and
its last name can be looked for. -/
structure Locates (t : FileTree) (b : Base) (path : String) (place : Place) : Prop where
  permitted : permit b path = .ok ()
  walked : ∃ up, t.walk b (cutLast path).1 = .ok up ∧ place = up ++ [(cutLast path).2]
  named : isDots (cutLast path).2 = false
  found : ∀ (t' : FileTree) (up : Place),
    t'.find b up (cutLast path).2 = .ok (t'.get? (up ++ [(cutLast path).2]))

section

variable {t t' : FileTree} {path : String} {place : Place}

lemma Locates.mono (h : t.Locates b path place)
    (hd : ∀ p, t.get? p = some .directory → t'.get? p = some .directory) :
    t'.Locates b path place := by
  obtain ⟨hpermit, ⟨up, hup, hplace⟩, hdots, hfind⟩ := h
  exact ⟨hpermit, ⟨up, walk_mono hd hup, hplace⟩, hdots, hfind⟩

/-- The file at a place is the file at the paths that lead there. -/
lemma Locates.file?_eq (h : t.Locates b path place) (hslash : path.toList.getLast? ≠ some '/')
    {bytes : List UInt8} (hf : t.get? place = some (.file bytes)) :
    t.file? b path = some bytes := by
  obtain ⟨hpermit, ⟨up, hup, rfl⟩, hdots, hfind⟩ := h
  unfold file? read
  dsimp only
  rw [hdots, if_neg (not_or.2 ⟨Bool.false_ne_true, hslash⟩), hpermit, hup]
  dsimp only [bind, Except.bind]
  rw [hfind t up, hf]
  rfl

variable (b path) in
/-- **What comes of opening a file to be written.** Nothing happens, or there is an empty file
where no directory was. -/
lemma openEmpty_cases (t : FileTree) :
    (∃ e, (openEmpty b path).run.run t = (.error e, t)) ∨
      ∃ place, t.Locates b path place ∧ t.get? place ≠ some .directory ∧
        (openEmpty b path).run.run t = (.ok place, t.put place (.file [])) := by
  unfold openEmpty
  rw [Act.run_bind, Act.run_liftExcept]
  cases hpermit : permit b path with
  | error e => exact .inl ⟨e, rfl⟩
  | ok _ =>
    dsimp only
    rw [Act.run_bind, Act.run_get]
    dsimp only
    rw [Act.run_bind, Act.run_liftExcept]
    cases hup : t.walk b (cutLast path).1 with
    | error e => exact .inl ⟨e, rfl⟩
    | ok up =>
      dsimp only
      by_cases hdots : isDots (cutLast path).2 = true
      · rw [if_pos hdots]
        exact .inl ⟨_, rfl⟩
      · rw [if_neg hdots, Act.run_bind, Act.run_liftExcept]
        cases hfind : t.find b up (cutLast path).2 with
        | error e => exact .inl ⟨e, rfl⟩
        | ok x =>
          obtain ⟨rfl, hfound⟩ := find_eq_ok hfind
          have hlocates : t.Locates b path (up ++ [(cutLast path).2]) :=
            ⟨hpermit, ⟨up, hup, rfl⟩, Bool.eq_false_iff.2 hdots, hfound⟩
          cases hg : t.get? (up ++ [(cutLast path).2]) with
          | none => exact .inr ⟨_, hlocates, by rw [hg]; nofun, rfl⟩
          | some entry =>
            cases entry with
            | directory => exact .inl ⟨_, rfl⟩
            | file bytes => exact .inr ⟨_, hlocates, by rw [hg]; nofun, rfl⟩

end

end FileTree

end SavedState
