import Mathlib.Data.List.Induction
import SavedState.Proofs.HelperPath
import SavedState.Proofs.Tables
import SavedState.Proofs.Writing

/-!
Helpers that are written to a directory.

Below the directory, the names of files have a dot and those of directories have none. So a
helper never meets a directory in the place of its file, nor a file in the place of one of its
directories, and the only thing that can be in its way is a helper of the same run.
-/

namespace SavedState

open FilePath

namespace FileTree

/-! ### Entries -/

lemma put_cons (place : Place) (entry : FileEntry) (e : Place × FileEntry) (t : FileTree) :
    put place entry (e :: t) =
      if e.1 = place then (place, entry) :: t else e :: put place entry t :=
  rfl

lemma lookup_put (place q : Place) (entry : FileEntry) (t : FileTree) :
    (t.put place entry).lookup q = if q = place then some entry else t.lookup q :=
  Table.lookup_set (put place entry) rfl (put_cons place entry) t q

lemma get?_put {place : Place} (hne : place ≠ []) (q : Place) (entry : FileEntry) (t : FileTree) :
    (t.put place entry).get? q = if q = place then some entry else t.get? q := by
  unfold get?
  rw [lookup_put]
  by_cases hq : q = []
  · simp [hq, hne.symm]
  · simp [hq]

lemma put_put (place : Place) (entry entry' : FileEntry) (t : FileTree) :
    (t.put place entry).put place entry' = t.put place entry' := by
  induction t with
  | nil => exact if_pos rfl
  | cons e t ih =>
    rw [put_cons, put_cons]
    split
    · rw [put_cons, if_pos rfl]
    · rename_i he
      rw [put_cons, if_neg he, ih]

lemma bytesAt_put {place : Place} (hne : place ≠ []) (held : List UInt8) (t : FileTree) :
    (t.put place (.file held)).bytesAt place = held := by
  unfold bytesAt
  rw [get?_put hne, if_pos rfl]

/-! ### What is below a place -/

/-- Below a place, the names of files have a dot in them and those of directories have none. -/
structure Tidy (t : FileTree) (place : Place) : Prop where
  file : ∀ names s bytes,
    t.get? (place ++ (names ++ [s])) = some (.file bytes) → '.' ∈ s.toList
  directory : ∀ names s, t.get? (place ++ (names ++ [s])) = some .directory → '.' ∉ s.toList

/-- Names lead from a place through directories. -/
def Leads (t : FileTree) (place : Place) (names : List String) : Prop :=
  ∀ front s, front ++ [s] <+: names → t.get? (place ++ (front ++ [s])) = some .directory

variable {t : FileTree} {place : Place} {names : List String} {s : String}

lemma leads_nil : t.Leads place [] := fun front s h => by simp at h

lemma leads_concat : t.Leads place (names ++ [s]) ↔
    t.Leads place names ∧ t.get? (place ++ (names ++ [s])) = some .directory := by
  constructor
  · exact fun h => ⟨fun front x hx => h front x (hx.trans (List.prefix_append _ _)),
      h names s List.prefix_rfl⟩
  · rintro ⟨h, hs⟩ front x hx
    rcases List.prefix_concat_iff.1 hx with he | hx
    · rw [he]
      exact hs
    · exact h front x hx

lemma last_eq {front : List String} {x : String}
    (h : place ++ (front ++ [x]) = place ++ (names ++ [s])) : x = s := by
  rw [List.append_cancel_left_eq] at h
  exact (List.append_inj' h rfl).2 |> List.singleton_inj.1

lemma Tidy.put_file (h : t.Tidy place) (hs : '.' ∈ s.toList) (bytes : List UInt8) :
    (t.put (place ++ (names ++ [s])) (.file bytes)).Tidy place := by
  have hne : place ++ (names ++ [s]) ≠ [] := by simp
  refine ⟨fun front x held hx => ?_, fun front x hx => ?_⟩
  · rw [get?_put hne] at hx
    split at hx
    · rename_i he
      rw [last_eq he]
      exact hs
    · exact h.file front x held hx
  · rw [get?_put hne] at hx
    split at hx
    · cases hx
    · exact h.directory front x hx

lemma Tidy.put_directory (h : t.Tidy place) (hs : '.' ∉ s.toList) :
    (t.put (place ++ (names ++ [s])) .directory).Tidy place := by
  have hne : place ++ (names ++ [s]) ≠ [] := by simp
  refine ⟨fun front x held hx => ?_, fun front x hx => ?_⟩
  · rw [get?_put hne] at hx
    split at hx
    · cases hx
    · exact h.file front x held hx
  · rw [get?_put hne] at hx
    split at hx
    · rename_i he
      rw [last_eq he]
      exact hs
    · exact h.directory front x hx

/-! ### Paths that can be followed -/

/-- Whether a path is followed at all: there is no NUL in it, and neither the path nor a name in
it is too long. -/
structure Follows (path : String) : Prop where
  noNul : '\x00' ∉ path.toList
  length : Text.byteLength path.toList ≤ maxPath
  lengths : ∀ s ∈ parts path, Text.byteLength s.toList ≤ maxName

lemma Follows.permit {path : String} (h : Follows path) (b : Base) : permit b path = .ok () := by
  unfold FileTree.permit
  rw [if_neg h.noNul, if_neg (Nat.not_lt.2 h.length)]

/-- Names that make up a path which is followed. -/
structure Followable (names : List String) : Prop where
  plain : ∀ s ∈ names, IsPlain s
  follows : Follows (through names)

lemma Followable.slash_not_mem (h : Followable names) : ∀ s ∈ names, '/' ∉ s.toList :=
  fun s hs => (h.plain s hs).slash_not_mem

lemma Followable.of_concat (h : Followable (names ++ [s])) : Followable names := by
  have hplain : ∀ x ∈ names, IsPlain x := fun x hx => h.plain x (List.mem_append_left _ hx)
  obtain ⟨more, hmore⟩ := through_prefix names s
  refine ⟨hplain, fun hn => h.follows.noNul ?_, ?_, fun x hx => ?_⟩
  · rw [← hmore]
    exact List.mem_append_left _ hn
  · have := h.follows.length
    rw [← hmore, Text.byteLength_append] at this
    omega
  · by_cases hnil : names = []
    · rw [hnil] at hx
      cases List.mem_singleton.1 hx
      exact Nat.zero_le _
    · rw [parts_through hnil fun x hx => (hplain x hx).slash_not_mem] at hx
      refine h.follows.lengths x ?_
      rw [parts_through (by simp) h.slash_not_mem]
      exact List.mem_append_left _ hx

lemma Followable.find (h : Followable names) (hs : s ∈ names) (t : FileTree) (b : Base)
    (place : Place) : t.find b place s = .ok (t.get? (place ++ [s])) := by
  have hlength : Text.byteLength s.toList ≤ maxName := by
    refine h.follows.lengths s ?_
    rwa [parts_through (List.ne_nil_of_mem hs) h.slash_not_mem]
  unfold FileTree.find
  rw [if_neg fun hn => h.follows.noNul (Text.mem_intercalate hs hn),
    if_neg (Nat.not_lt.2 hlength)]

/-- One step to a name that can only be that of a directory. -/
lemma Followable.step (h : Followable names) (hs : s ∈ names) (hdot : '.' ∉ s.toList) {b : Base}
    (ht : t.Tidy b.place) (front : List String) :
    t.step b (b.place ++ front) s =
      if t.get? (b.place ++ (front ++ [s])) = some .directory then .ok (b.place ++ (front ++ [s]))
      else .error .notFound := by
  have hp := h.plain s hs
  unfold FileTree.step
  rw [if_neg (not_or.2 ⟨hp.ne_empty, hp.ne_dot⟩), if_neg hp.ne_dots, h.find hs, List.append_assoc]
  cases hg : t.get? (b.place ++ (front ++ [s])) with
  | none => rfl
  | some e =>
    cases e with
    | directory => rfl
    | file bytes => exact absurd (ht.file front s bytes hg) hdot

/-- Following names that can only be those of directories. -/
lemma foldlM_step (h : Followable names) (hdot : ∀ s ∈ names, '.' ∉ s.toList) {b : Base}
    (ht : t.Tidy b.place) :
    (t.Leads b.place names ∧ names.foldlM (t.step b) b.place = .ok (b.place ++ names)) ∨
      (¬t.Leads b.place names ∧ names.foldlM (t.step b) b.place = .error .notFound) := by
  induction names using List.reverseRecOn with
  | nil => exact Or.inl ⟨leads_nil, by simp; rfl⟩
  | append_singleton names s ih =>
    rw [List.foldlM_append, leads_concat]
    rcases ih h.of_concat fun x hx => hdot x (List.mem_append_left _ hx) with
      ⟨hl, hf⟩ | ⟨hl, hf⟩
    · have hs : s ∈ names ++ [s] := by simp
      have hstep : [s].foldlM (t.step b) (b.place ++ names) = t.step b (b.place ++ names) s := by
        rw [List.foldlM_cons]
        cases t.step b (b.place ++ names) s <;> rfl
      rw [hf]
      change _ ∧ [s].foldlM (t.step b) (b.place ++ names) = _ ∨
        _ ∧ [s].foldlM (t.step b) (b.place ++ names) = _
      rw [hstep, h.step hs (hdot s hs) ht names]
      by_cases hg : t.get? (b.place ++ (names ++ [s])) = some .directory
      · rw [if_pos hg]
        exact Or.inl ⟨⟨hl, hg⟩, rfl⟩
      · rw [if_neg hg]
        exact Or.inr ⟨fun hc => hg hc.2, rfl⟩
    · rw [hf]
      exact Or.inr ⟨fun hc => hl hc.1, rfl⟩

variable {b : Base}

lemma walk_through (h : Followable names) (hdot : ∀ s ∈ names, '.' ∉ s.toList)
    (ht : t.Tidy b.place) (hne : names ≠ []) :
    (t.Leads b.place names ∧ t.walk b (through names) = .ok (b.place ++ names)) ∨
      (¬t.Leads b.place names ∧ t.walk b (through names) = .error .notFound) := by
  unfold walk start
  rw [isAbsolute_through h.plain, if_neg Bool.false_ne_true, parts_through hne h.slash_not_mem]
  exact foldlM_step h hdot ht

/-- The way to the last name of a path. -/
lemma walk_before (h : Followable names) (hdot : ∀ s ∈ names, '.' ∉ s.toList)
    (ht : t.Tidy b.place) :
    (t.Leads b.place names ∧ t.walk b (before names) = .ok (b.place ++ names)) ∨
      (¬t.Leads b.place names ∧ t.walk b (before names) = .error .notFound) := by
  have hempty : ∀ place, [""].foldlM (t.step b) place = .ok place := fun place => rfl
  unfold walk start
  rw [isAbsolute_before h.plain, if_neg Bool.false_ne_true, parts_before h.slash_not_mem]
  change _ ∧ (names ++ [""]).foldlM (t.step b) b.place = _ ∨
    _ ∧ (names ++ [""]).foldlM (t.step b) b.place = _
  rw [List.foldlM_append]
  rcases foldlM_step h hdot ht with ⟨hl, hf⟩ | ⟨hl, hf⟩
  · rw [hf]
    exact Or.inl ⟨hl, hempty _⟩
  · rw [hf]
    exact Or.inr ⟨hl, rfl⟩

/-! ### Directories -/

lemma isDots_eq_false (h : IsPlain s) : isDots s = false := by
  unfold isDots
  simp [h.ne_empty, h.ne_dot, h.ne_dots]

/-- A directory is made where nothing is, if the way to it is there. -/
lemma run_makeDirectory (h : Followable (names ++ [s])) (hdot : ∀ x ∈ names ++ [s], '.' ∉ x.toList)
    (ht : t.Tidy b.place) :
    (t.Leads b.place names ∧ t.get? (b.place ++ (names ++ [s])) = none ∧
      (makeDirectory b (through (names ++ [s]))).run.run t =
        (.ok (), t.put (b.place ++ (names ++ [s])) .directory)) ∨
    (t.Leads b.place names ∧ t.get? (b.place ++ (names ++ [s])) = some .directory ∧
      (makeDirectory b (through (names ++ [s]))).run.run t = (.error .fileExists, t)) ∨
    (¬t.Leads b.place names ∧
      (makeDirectory b (through (names ++ [s]))).run.run t = (.error .notFound, t)) := by
  have hs : s ∈ names ++ [s] := by simp
  have hp := h.plain s hs
  have hfront := h.of_concat
  have hrun : (makeDirectory b (through (names ++ [s]))).run.run t =
      match t.walk b (before names) with
      | .error e => (.error e, t)
      | .ok place =>
        if (t.get? (place ++ [s])).isSome then (.error .fileExists, t)
        else (.ok (), t.put (place ++ [s]) .directory) := by
    unfold makeDirectory
    rw [Act.run_bind, Act.run_get, cutLast_through hp names]
    dsimp only
    rw [isDots_eq_false hp, if_neg Bool.false_ne_true, if_neg Bool.false_ne_true,
      parent?_through hfront.plain hp, Act.run_bind, Act.run_liftExcept, Option.getD_some,
      hfront.follows.permit]
    dsimp only
    rw [Act.run_bind, Act.run_liftExcept]
    cases t.walk b (before names) with
    | error e => rfl
    | ok place =>
      dsimp only
      rw [if_neg Bool.false_ne_true, Act.run_bind, Act.run_liftExcept, h.find hs]
      cases t.get? (place ++ [s]) <;> rfl
  rw [hrun]
  rcases walk_before hfront (fun x hx => hdot x (List.mem_append_left _ hx)) ht with
    ⟨hl, hw⟩ | ⟨hl, hw⟩
  · rw [hw]
    dsimp only
    rw [List.append_assoc]
    cases hg : t.get? (b.place ++ (names ++ [s])) with
    | none => exact Or.inl ⟨hl, rfl, rfl⟩
    | some e =>
      cases e with
      | directory => exact Or.inr (Or.inl ⟨hl, rfl, rfl⟩)
      | file bytes => exact absurd (ht.file names s bytes hg) (hdot s hs)
  · rw [hw]
    exact Or.inr (Or.inr ⟨hl, rfl⟩)

lemma Leads.put {place' : Place} (h : t.Leads place names) (hnew : t.get? place' = none)
    (hne : place' ≠ []) (entry : FileEntry) : (t.put place' entry).Leads place names := by
  intro front x hx
  rw [get?_put hne, if_neg]
  · exact h front x hx
  · rintro he
    have := h front x hx
    rw [he, hnew] at this
    cases this

/-- Making sure of a directory, if the way to it is there. -/
lemma run_ensureDirectory (h : Followable (names ++ [s]))
    (hdot : ∀ x ∈ names ++ [s], '.' ∉ x.toList) (ht : t.Tidy b.place) :
    (t.Leads b.place names ∧ ∃ t' : FileTree,
      (ensureDirectory b (through (names ++ [s]))).run.run t = (.ok (), t') ∧ t'.Tidy b.place ∧
        t'.Leads b.place (names ++ [s])) ∨
    (¬t.Leads b.place names ∧
      (ensureDirectory b (through (names ++ [s]))).run.run t = (.error .notFound, t)) := by
  have hs : s ∈ names ++ [s] := by simp
  have hne : b.place ++ (names ++ [s]) ≠ [] := by simp
  have hopen : t.holdsDirectory b (through (names ++ [s])) = true ↔
      t.Leads b.place (names ++ [s]) := by
    have hpath : ¬through (names ++ [s]) = "" := by
      rw [through_eq_empty h.plain]
      simp
    unfold holdsDirectory openDirectory
    rw [if_neg hpath, h.follows.permit]
    change (t.walk b (through (names ++ [s]))).toOption.isSome = true ↔ _
    rcases walk_through h hdot ht (by simp) with ⟨hl, hw⟩ | ⟨hl, hw⟩ <;>
      simp [hl, hw, Except.toOption]
  unfold ensureDirectory
  rw [Act.run_tryCatch]
  rcases run_makeDirectory h hdot ht with ⟨hl, hg, hr⟩ | ⟨hl, hg, hr⟩ | ⟨hl, hr⟩
  · rw [hr]
    refine Or.inl ⟨hl, _, rfl, ht.put_directory (hdot s hs), leads_concat.2 ⟨?_, ?_⟩⟩
    · exact hl.put hg hne _
    · rw [get?_put hne, if_pos rfl]
  · have hall : t.Leads b.place (names ++ [s]) := leads_concat.2 ⟨hl, hg⟩
    rw [hr]
    refine Or.inl ⟨hl, t, ?_, ht, hall⟩
    dsimp only
    rw [Act.run_bind, Act.run_get]
    dsimp only
    rw [if_pos (hopen.2 hall)]
    rfl
  · rw [hr]
    refine Or.inr ⟨hl, ?_⟩
    dsimp only
    rw [Act.run_bind, Act.run_get]
    dsimp only
    rw [if_neg fun hc => hl (leads_concat.1 (hopen.1 hc)).1]
    rfl

/-- **Directories can be made all the way.** -/
lemma run_ensureDirectories (h : Followable names) (hdot : ∀ s ∈ names, '.' ∉ s.toList)
    (ht : t.Tidy b.place) :
    ∃ t' : FileTree, (ensureDirectories b (through names)).run.run t = (.ok (), t') ∧
      t'.Tidy b.place ∧ t'.Leads b.place names := by
  unfold ensureDirectories
  induction names using List.reverseRecOn generalizing t with
  | nil => exact ⟨t, rfl, ht, leads_nil⟩
  | append_singleton names s ih =>
    have hs : IsPlain s := h.plain s (by simp)
    have hpath : ¬through (names ++ [s]) = "" := by
      rw [through_eq_empty h.plain]
      simp
    rw [above_through h.of_concat.plain hs, ensureChain, if_neg hpath, Act.run_tryCatch]
    rcases run_ensureDirectory h hdot ht with ⟨-, t', hr, ht', hl⟩ | ⟨-, hr⟩
    · rw [hr]
      exact ⟨t', rfl, ht', hl⟩
    · obtain ⟨t', hr', ht', hl⟩ :=
        ih h.of_concat (fun x hx => hdot x (List.mem_append_left _ hx)) ht
      have hkind : IoError.notFound.kind = .notFound := rfl
      rw [hr]
      dsimp only
      rw [if_pos hkind, Act.run_bind, hr']
      dsimp only
      rcases run_ensureDirectory h hdot ht' with ⟨-, t'', hr'', ht'', hl'⟩ | ⟨hn, -⟩
      · exact ⟨t'', hr'', ht'', hl'⟩
      · exact absurd hl hn

/-! ### Files -/

/-- A file is made or emptied, since no directory has its name. -/
lemma run_openEmpty (h : Followable (names ++ [s])) (hdirs : ∀ x ∈ names, '.' ∉ x.toList)
    (hfile : '.' ∈ s.toList) (ht : t.Tidy b.place) (hl : t.Leads b.place names) :
    (openEmpty b (through (names ++ [s]))).run.run t =
      (.ok (b.place ++ (names ++ [s])), t.put (b.place ++ (names ++ [s])) (.file [])) := by
  have hs : s ∈ names ++ [s] := by simp
  have hp := h.plain s hs
  have hwalk : t.walk b (before names) = .ok (b.place ++ names) := by
    rcases walk_before h.of_concat hdirs ht with ⟨-, hw⟩ | ⟨hn, -⟩
    · exact hw
    · exact absurd hl hn
  unfold openEmpty
  rw [Act.run_bind, Act.run_liftExcept, h.follows.permit]
  dsimp only
  rw [Act.run_bind, Act.run_get, cutLast_through hp names]
  dsimp only
  rw [Act.run_bind, Act.run_liftExcept, hwalk]
  dsimp only
  rw [isDots_eq_false hp, if_neg Bool.false_ne_true, Act.run_bind, Act.run_liftExcept, h.find hs,
    List.append_assoc]
  dsimp only
  cases hg : t.get? (b.place ++ (names ++ [s])) with
  | none => rfl
  | some e =>
    cases e with
    | directory => exact absurd hfile (ht.directory names s hg)
    | file bytes => rfl

end FileTree

/-! ### Helpers -/

namespace Medium

variable {place : Place} (hne : place ≠ []) (m : Medium) (t : FileTree) (held bytes : List UInt8)

lemma run_leave (place : Place) (refusal : Option Refusal) :
    (leave place bytes refusal).run.run (t.put place (.file held)) =
      ((taken bytes refusal).1, t.put place (.file (taken bytes refusal).2)) := by
  unfold leave
  dsimp only
  rw [Act.run_bind, Act.run_modify, FileTree.put_put]
  dsimp only
  rw [Act.run_liftExcept]

include hne

lemma run_write :
    (m.write place bytes).run.run (t.put place (.file held)) =
      ((taken (held ++ bytes) (m.onWrite place held bytes)).1,
        t.put place (.file (taken (held ++ bytes) (m.onWrite place held bytes)).2)) := by
  unfold write
  rw [Act.run_bind, Act.run_get]
  dsimp only
  rw [FileTree.bytesAt_put hne, run_leave]

lemma run_flush :
    (m.flush place).run.run (t.put place (.file held)) =
      ((taken held (m.onFlush place held)).1,
        t.put place (.file (taken held (m.onFlush place held)).2)) := by
  unfold flush
  rw [Act.run_bind, Act.run_get]
  dsimp only
  rw [FileTree.bytesAt_put hne, run_leave]

end Medium

lemma Output.run_onTree {α : Type} (act : Act FileTree α) (w : Output) :
    (Output.onTree act).run.run w = ((act.run.run w.tree).1, ⟨(act.run.run w.tree).2, w.created⟩) :=
  rfl

namespace OutputDirectory

open FileTree DeclaringType

variable (o : OutputDirectory)

section

variable {place : Place} (hne : place ≠ []) (tree : FileTree) (created : List (String × String))

include hne

/-- A file keeps what it takes of what is added to it. -/
lemma run_channel_write (m : Medium) (held bytes : List UInt8) :
    ((channel m place).write bytes).run.run ⟨tree.put place (.file held), created⟩ =
      ((Medium.taken (held ++ bytes) (m.onWrite place held bytes)).1,
        ⟨tree.put place (.file (Medium.taken (held ++ bytes) (m.onWrite place held bytes)).2),
          created⟩) := by
  change (Output.onTree (m.write place bytes)).run.run _ = _
  rw [Output.run_onTree, Medium.run_write hne]

lemma run_channel_flush (m : Medium) (held : List UInt8) :
    (channel m place).flush.run.run ⟨tree.put place (.file held), created⟩ =
      ((Medium.taken held (m.onFlush place held)).1,
        ⟨tree.put place (.file (Medium.taken held (m.onFlush place held)).2), created⟩) := by
  change (Output.onTree (m.flush place)).run.run _ = _
  rw [Output.run_onTree, Medium.run_flush hne]

/-- A file that takes all bytes keeps them. -/
lemma channel_keeps (e : IoError) :
    (channel .willing place).Keeps none e fun held => ⟨tree.put place (.file held), created⟩ := by
  intro held bytes _
  rw [run_channel_write hne, if_pos (isWithin_none _)]
  rfl

/-- A file that takes all bytes gets a whole helper. -/
lemma run_helper (d : DeclaringType) (helper : HelperName) (fields : FieldSet) :
    (HelperText.emitter d helper fields (channel .willing place) >>= fun _ =>
        (channel .willing place).flush).run.run ⟨tree.put place (.file []), created⟩ =
      (.ok (), ⟨tree.put place (.file (HelperText.emitter.whole d helper fields)), created⟩) := by
  have hkeeps := channel_keeps hne tree created .notFound
  rw [Act.run_bind, HelperText.run_emitter _ _ fields hkeeps, if_pos (isWithin_none _),
    (isWithin_none _).cut_eq]
  exact run_channel_flush hne tree created .willing _

end

variable (m : Medium) {d : DeclaringType} {suffix : String} {w : Output}

/-- What has a path already keeps it. -/
lemma run_create_of_owned {owner : String}
    (h : w.owner? (relativePath (.of d suffix) d) = some owner) :
    ∃ e, ((o.sink m).create (.of d suffix) d).run.run w = (.error e, w) := by
  change ∃ e, (o.create m (.of d suffix) d).run.run w = _
  unfold create
  dsimp only
  rw [Act.run_bind, Act.run_get]
  dsimp only
  rw [h]
  exact ⟨_, rfl⟩

/-- A path that nothing has gets a new file, with the directories on the way to it. -/
lemma run_create_of_free (hd : d.IsProper) (hs : '/' ∉ suffix.toList)
    (hf : Followable (d.fileNames suffix)) (ht : w.tree.Tidy o.place)
    (h : w.owner? (relativePath (.of d suffix) d) = none) :
    ∃ tree : FileTree, tree.Tidy o.place ∧ ((o.sink m).create (.of d suffix) d).run.run w =
      (.ok (channel m (o.place ++ d.fileNames suffix)),
        ⟨tree.put (o.place ++ d.fileNames suffix) (.file []),
          w.created ++ [(relativePath (.of d suffix) d, (HelperName.of d suffix).artifact)]⟩) := by
  have hdirs : ∀ x ∈ d.packages, '.' ∉ x.toList := fun x hx =>
    (hd.names x (List.mem_append_left _ hx)).dot_not_mem
  have hpackages : Followable d.packages := hf.of_concat
  change ∃ tree : FileTree, _ ∧ (o.create m (.of d suffix) d).run.run w = _
  unfold create
  dsimp only
  rw [Act.run_bind, Act.run_get]
  dsimp only
  rw [h]
  dsimp only
  have hparent : parent? (relativePath (.of d suffix) d) = some (through d.packages) := by
    rw [relativePath_eq hd.isNamed hs]
    exact parent?_through (isPlain_packages hd.isNamed) (isPlain_fileName hd.isNamed hs)
  have hopen : ∀ tree : FileTree, tree.Tidy o.place → tree.Leads o.place d.packages →
      (Output.onTree (openEmpty o.base (relativePath (.of d suffix) d))).run.run
          ⟨tree, w.created⟩ =
        (.ok (o.place ++ d.fileNames suffix),
          ⟨tree.put (o.place ++ d.fileNames suffix) (.file []), w.created⟩) := by
    intro tree htree hl
    have hrun := run_openEmpty (b := o.base) hf hdirs (dot_mem_fileName d suffix) htree hl
    rw [Output.run_onTree, relativePath_eq hd.isNamed hs]
    exact congrArg (fun x => (x.1, (⟨x.2, w.created⟩ : Output))) hrun
  rw [hparent]
  dsimp only
  by_cases hnil : through d.packages = ""
  · have hl : w.tree.Leads o.place d.packages := by
      rw [(through_eq_empty (isPlain_packages hd.isNamed)).1 hnil]
      exact leads_nil
    refine ⟨w.tree, ht, ?_⟩
    rw [if_neg (not_not.2 hnil), Act.run_bind, hopen w.tree ht hl]
    rfl
  · obtain ⟨tree, hrun, htree, hl⟩ := run_ensureDirectories (b := o.base) hpackages hdirs ht
    refine ⟨tree, htree, ?_⟩
    rw [if_pos hnil, Act.run_bind, Output.run_onTree, hrun]
    dsimp only
    rw [Act.run_bind, hopen tree htree hl]
    rfl

variable {v : Driver}

/-- **What becomes of a helper** where files take all bytes. It is written, unless its path has been
used in this run. -/
lemma emit_directory (hv : v.emitter = HelperText.emitter) (hd : d.IsProper)
    (hs : '/' ∉ v.suffix.toList) (hf : Followable (d.fileNames v.suffix)) (fields : FieldSet)
    (ht : w.tree.Tidy o.place) :
    let path := relativePath (v.helperName d) d
    if (w.owner? path).isSome then
      ∃ reason, v.emit (o.sink .willing) d fields w =
        ((.failed (v.helperName d).artifact reason, [⟨v.severity, .type d, reason⟩]), w)
    else ∃ tree : FileTree, tree.Tidy o.place ∧ v.emit (o.sink .willing) d fields w =
      ((.written (v.helperName d).artifact fields.size, []),
        ⟨tree, w.created ++ [(path, (v.helperName d).artifact)]⟩) := by
  intro path
  cases howner : w.owner? path with
  | some owner =>
    obtain ⟨e, he⟩ := o.run_create_of_owned .willing howner
    rw [Option.isSome_some, if_pos rfl,
      Driver.emit_of_error (Driver.perform_of_not_created fields he)]
    exact ⟨_, rfl⟩
  | none =>
    have hne : o.place ++ d.fileNames v.suffix ≠ [] := by simp [fileNames]
    obtain ⟨tree, htree, hcreate⟩ := o.run_create_of_free .willing hd hs hf ht howner
    have hperform := Driver.perform_of_created fields hcreate
    rw [hv, run_helper hne] at hperform
    rw [Option.isSome_none, if_neg Bool.false_ne_true, Driver.emit_of_ok hperform]
    exact ⟨_, htree.put_file (dot_mem_fileName d v.suffix) _, rfl⟩

end OutputDirectory

end SavedState
