import SavedState.Proofs.GrowingTrees

/-!
What lasts in a tree.

If what is there stays there, and no file takes the place of a directory or the other way round,
then names lead to the same places later, and what is in their way stays in their way. Only what
is not there at all may be there later.
-/

namespace SavedState

open FilePath

namespace FileTree

/-! ### What lasts -/

/-- Whatever is there is there later, and is a directory just if it was one. -/
def LastsIn (t t' : FileTree) : Prop :=
  ∀ place entry, t.get? place = some entry →
    ∃ entry', t'.get? place = some entry' ∧ (entry' = .directory ↔ entry = .directory)

namespace LastsIn

variable {t t' t'' : FileTree} {place : Place}

lemma refl (t : FileTree) : t.LastsIn t := fun _ entry h => ⟨entry, h, Iff.rfl⟩

lemma trans (h : t.LastsIn t') (h' : t'.LastsIn t'') : t.LastsIn t'' := by
  intro place entry hg
  obtain ⟨entry', hg', hkind⟩ := h place entry hg
  obtain ⟨entry'', hg'', hkind'⟩ := h' place entry' hg'
  exact ⟨entry'', hg'', hkind'.trans hkind⟩

lemma directory (h : t.LastsIn t') (hd : t.get? place = some .directory) :
    t'.get? place = some .directory := by
  obtain ⟨entry, hg, hkind⟩ := h place .directory hd
  rw [hg, hkind.2 rfl]

lemma of_grows (h : t.Grows t') : t.LastsIn t' := by
  intro place entry hg
  rcases h place with h | ⟨hnone, -⟩
  · exact ⟨entry, h.trans hg, Iff.rfl⟩
  · rw [hg] at hnone
    cases hnone

lemma put_file (hne : place ≠ []) (hd : t.get? place ≠ some .directory) (bytes : List UInt8) :
    t.LastsIn (t.put place (.file bytes)) := by
  intro q entry hg
  rw [get?_put hne]
  split
  · rename_i hq
    refine ⟨.file bytes, rfl, iff_of_false nofun ?_⟩
    rintro rfl
    exact hd (hq ▸ hg)
  · exact ⟨entry, hg, Iff.rfl⟩

end LastsIn

/-! ### Trees with a root -/

/-- Whatever stands somewhere stands in a directory. -/
def Rooted (t : FileTree) : Prop :=
  ∀ place name entry, t.get? (place ++ [name]) = some entry → t.get? place = some .directory

namespace Rooted

variable {t : FileTree} {b : Base} {place q : Place} {path name : String} {names : List String}

/-- A tree with entries at the top only. -/
lemma of_top (h : ∀ e ∈ t, e.1.length ≤ 1) : t.Rooted := by
  intro place name entry hg
  unfold get? at hg
  rw [if_neg (by simp)] at hg
  obtain ⟨front, rest, he, -⟩ := List.lookup_eq_some_iff.1 hg
  have hlength := h (place ++ [name], entry) (he ▸ List.mem_append_right front List.mem_cons_self)
  rw [List.length_append, List.length_singleton] at hlength
  obtain rfl := List.length_eq_zero_iff.1 (Nat.le_zero.1 (Nat.le_of_succ_le_succ hlength))
  rfl

lemma put (hr : t.Rooted) (hup : t.get? place = some .directory) {entry : FileEntry}
    (h : t.get? (place ++ [name]) = some .directory → entry = .directory) :
    (t.put (place ++ [name]) entry).Rooted := by
  have hne : place ++ [name] ≠ [] := by simp
  intro q s e hg
  rw [get?_put hne] at hg ⊢
  have hq : t.get? q = some .directory := by
    split at hg
    · rename_i he
      rw [(List.append_inj' he rfl).1]
      exact hup
    · exact hr q s e hg
  split
  · rename_i he
    rw [h (he ▸ hq)]
  · exact hq

lemma step (hr : t.Rooted) (hd : t.get? place = some .directory)
    (h : t.step b place name = .ok q) : t.get? q = some .directory := by
  unfold FileTree.step at h
  split at h
  · cases h
    exact hd
  · split at h
    · split at h
      · cases h
      · cases h
        rcases List.eq_nil_or_concat place with rfl | ⟨front, s, rfl⟩
        · exact hd
        · rw [List.concat_eq_append] at hd ⊢
          rw [List.dropLast_concat]
          exact hr _ _ _ hd
    · obtain ⟨x, hx, h⟩ := bind_eq_ok h
      obtain ⟨rfl, -⟩ := find_eq_ok hx
      cases hg : t.get? (place ++ [name]) with
      | none =>
        rw [hg] at h
        cases h
      | some entry =>
        rw [hg] at h
        cases entry with
        | file bytes => cases h
        | directory =>
          cases h
          exact hg

lemma foldlM_step (hr : t.Rooted) (hd : t.get? place = some .directory)
    (h : names.foldlM (t.step b) place = .ok q) : t.get? q = some .directory := by
  induction names generalizing place with
  | nil =>
    cases h
    exact hd
  | cons s names ih =>
    rw [List.foldlM_cons] at h
    obtain ⟨next, hnext, h⟩ := bind_eq_ok h
    exact ih (hr.step hd hnext) h

/-- A path leads to a directory. -/
lemma walk (hr : t.Rooted) (hb : t.get? b.place = some .directory)
    (h : t.walk b path = .ok q) : t.get? q = some .directory := by
  obtain ⟨start, hstart, h⟩ := bind_eq_ok h
  have hd : t.get? start = some .directory := by
    unfold FileTree.start at hstart
    split at hstart
    · split at hstart
      · cases hstart
      · cases hstart
        rfl
    · cases hstart
      exact hb
  exact hr.foldlM_step hd h

end Rooted

/-- A rooted tree in which the start of paths is a directory. -/
def RootedAt (b : Base) (t : FileTree) : Prop := t.Rooted ∧ t.get? b.place = some .directory

section

variable {b : Base}

/-- A file that is there can be filled with anything. -/
lemma RootedAt.put_file {t : FileTree} (h : t.RootedAt b) {place : Place} {held : List UInt8}
    (hf : t.get? place = some (.file held)) (bytes : List UInt8) :
    (t.put place (.file bytes)).RootedAt b := by
  rcases List.eq_nil_or_concat place with rfl | ⟨up, name, rfl⟩
  · cases hf
  · rw [List.concat_eq_append] at hf ⊢
    have hd : t.get? (up ++ [name]) ≠ some .directory := by
      rw [hf]
      nofun
    exact ⟨h.1.put (h.1 _ _ _ hf) fun he => absurd he hd,
      (LastsIn.put_file (by simp) hd bytes).directory h.2⟩

lemma preserves_rootedAt (path : String) : (makeDirectory b path).Preserves (RootedAt b) := by
  rintro t ⟨hr, hb⟩
  rcases makeDirectory_cases b path t with ⟨r, hrun⟩ | ⟨up, hup, hnone, hrun⟩
  · rw [hrun]
    exact ⟨hr, hb⟩
  · rw [hrun]
    exact ⟨hr.put (hr.walk hb hup) fun _ => rfl, (Grows.put_directory hnone _).directory hb⟩

lemma openEmpty_preserves_rootedAt (path : String) : (openEmpty b path).Preserves (RootedAt b) := by
  rintro t ⟨hr, hb⟩
  rcases openEmpty_cases b path t with ⟨e, hrun⟩ | ⟨place, hlocates, hd, hrun⟩
  · rw [hrun]
    exact ⟨hr, hb⟩
  · obtain ⟨up, hup, rfl⟩ := hlocates.walked
    rw [hrun]
    exact ⟨hr.put (hr.walk hb hup) fun h => absurd h hd,
      (LastsIn.put_file (by simp) hd []).directory hb⟩

end

/-! ### Following names -/

section

variable {t t' : FileTree} {b : Base} {place q : Place} {names : List String} {s name path : String}
  {e : IoError} {x : Option FileEntry}

lemma find_eq_error (h : t.find b place name = .error e) :
    e.kind ≠ .notFound ∧ ∀ (t' : FileTree) (place' : Place), t'.find b place' name = .error e := by
  unfold find at h ⊢
  split at h
  · rename_i hnul
    cases h
    exact ⟨nofun, fun _ _ => if_pos hnul⟩
  · rename_i hnul
    split at h
    · rename_i hlength
      cases h
      exact ⟨nofun, fun _ _ => by rw [if_neg hnul, if_pos hlength]⟩
    · cases h

/-- What it comes to to go into what a name stands for. -/
def enter (place : Place) : Option FileEntry → Except IoError Place
  | none => .error .notFound
  | some (.file _) => .error .notADirectory
  | some .directory => .ok place

lemma step_of_plain (hp : IsPlain s) :
    t.step b place s = t.find b place s >>= enter (place ++ [s]) := by
  unfold step
  rw [if_neg (not_or.2 ⟨hp.ne_empty, hp.ne_dot⟩), if_neg hp.ne_dots]
  cases t.find b place s with
  | error e => rfl
  | ok x => rcases x with _ | _ | _ <;> rfl

/-- Where some names lead from the start. -/
def follow (t : FileTree) (b : Base) (names : List String) : Except IoError Place :=
  names.foldlM (t.step b) b.place

lemma follow_nil : t.follow b [] = .ok b.place := rfl

lemma follow_concat (hs : IsPlain s) :
    t.follow b (names ++ [s]) = t.follow b names >>= fun place =>
      t.find b place s >>= enter (place ++ [s]) := by
  have hlast : ∀ place,
      [s].foldlM (t.step b) place = t.find b place s >>= enter (place ++ [s]) := by
    intro place
    rw [List.foldlM_cons, ← step_of_plain hs]
    cases t.step b place s <;> rfl
  unfold follow
  rw [List.foldlM_append]
  simp only [hlast]

lemma walk_before_eq (hp : ∀ s ∈ names, IsPlain s) :
    t.walk b (before names) = t.follow b names := by
  unfold walk start follow
  rw [isAbsolute_before hp, if_neg Bool.false_ne_true,
    parts_before fun s hs => (hp s hs).slash_not_mem]
  change (names ++ [""]).foldlM (t.step b) b.place = _
  rw [List.foldlM_append]
  cases names.foldlM (t.step b) b.place <;> rfl

lemma walk_through_eq (hp : ∀ s ∈ names, IsPlain s) (hne : names ≠ []) :
    t.walk b (through names) = t.follow b names := by
  unfold walk start
  rw [isAbsolute_through hp, if_neg Bool.false_ne_true,
    parts_through hne fun s hs => (hp s hs).slash_not_mem]
  rfl

lemma follow_plain (hp : ∀ s ∈ names, IsPlain s) (h : t.follow b names = .ok q) :
    q = b.place ++ names :=
  foldlM_step_plain hp h

/-- Nothing but what is not there is reported as not found. -/
lemma follow_notFound (hp : ∀ s ∈ names, IsPlain s) (h : t.follow b names = .error e)
    (hk : e.kind = .notFound) : e = .notFound := by
  induction names using List.reverseRecOn with
  | nil => cases h
  | append_singleton names s ih =>
    rw [follow_concat (hp s (by simp))] at h
    cases hf : t.follow b names with
    | error e' =>
      rw [hf] at h
      cases h
      exact ih (fun s hs => hp s (List.mem_append_left _ hs)) hf
    | ok place =>
      rw [hf] at h
      cases hx : t.find b place s with
      | error e' =>
        rw [ok_bind, hx] at h
        cases h
        exact absurd hk (find_eq_error hx).1
      | ok x =>
        rw [ok_bind, hx] at h
        rcases x with _ | _ | _
        · exact (Except.error.inj h).symm
        · cases h
        · cases h
          cases hk

/-- What is on the way stays there, and so does what is in the way. -/
lemma follow_lasts (hl : t.LastsIn t') (hp : ∀ s ∈ names, IsPlain s)
    (hne : t.follow b names ≠ .error .notFound) : t'.follow b names = t.follow b names := by
  induction names using List.reverseRecOn with
  | nil => rfl
  | append_singleton names s ih =>
    have hp' : ∀ s ∈ names, IsPlain s := fun s hs => hp s (List.mem_append_left _ hs)
    rw [follow_concat (hp s (by simp))] at hne ⊢
    rw [follow_concat (hp s (by simp))]
    cases hf : t.follow b names with
    | error e =>
      rw [hf] at hne ih
      rw [ih hp' hne]
      rfl
    | ok place =>
      rw [hf] at hne ih
      rw [ih hp' nofun, ok_bind, ok_bind]
      rw [ok_bind] at hne
      cases hx : t.find b place s with
      | error e => rw [(find_eq_error hx).2]
      | ok x =>
        obtain ⟨rfl, hfound⟩ := find_eq_ok hx
        rw [hfound]
        rw [hx] at hne
        cases hg : t.get? (place ++ [s]) with
        | none =>
          rw [hg] at hne
          exact absurd rfl hne
        | some entry =>
          obtain ⟨entry', hg', hkind⟩ := hl _ _ hg
          rw [hg']
          rcases entry with _ | bytes
          · rw [hkind.2 rfl]
          · rcases entry' with _ | bytes'
            · cases hkind.1 rfl
            · rfl

/-! ### The last name -/

/-- What stands for the last of some names, for a call that is made with some path. -/
def sight (t : FileTree) (b : Base) (path : String) (names : List String) (s : String) :
    Except IoError (Option FileEntry) := do
  permit b path
  t.find b (← t.follow b names) s

lemma permit_eq_error (h : permit b path = .error e) : e.kind ≠ .notFound := by
  unfold permit at h
  split at h
  · cases h
    nofun
  · split at h
    · cases h
      nofun
    · cases h

lemma sight_eq_notFound (hp : ∀ s ∈ names, IsPlain s) (h : t.sight b path names s = .error e)
    (hk : e.kind = .notFound) :
    permit b path = .ok () ∧ t.follow b names = .error .notFound ∧ e = .notFound := by
  unfold sight at h
  cases hpermit : permit b path with
  | error e' =>
    rw [hpermit] at h
    cases h
    exact absurd hk (permit_eq_error hpermit)
  | ok _ =>
    rw [hpermit, ok_bind] at h
    cases hf : t.follow b names with
    | error e' =>
      rw [hf] at h
      cases h
      obtain rfl := follow_notFound hp hf hk
      exact ⟨rfl, rfl, rfl⟩
    | ok place =>
      rw [hf] at h
      exact absurd hk (find_eq_error h).1

/-- What cannot be seen for another reason than that it is not there cannot be seen later. -/
lemma sight_eq_error (hp : ∀ s ∈ names, IsPlain s) (h : t.sight b path names s = .error e)
    (hk : e.kind ≠ .notFound) (hl : t.LastsIn t') : t'.sight b path names s = .error e := by
  unfold sight at h ⊢
  cases hpermit : permit b path with
  | error e' =>
    rw [hpermit] at h
    exact h
  | ok _ =>
    rw [hpermit, ok_bind] at h
    rw [ok_bind]
    cases hf : t.follow b names with
    | error e' =>
      rw [hf] at h
      cases h
      have hne : t.follow b names ≠ .error .notFound := by
        rw [hf]
        rintro ⟨⟩
        exact hk rfl
      rw [follow_lasts hl hp hne, hf]
      rfl
    | ok place =>
      rw [follow_lasts hl hp (by rw [hf]; nofun), hf]
      rw [hf] at h
      exact (find_eq_error h).2 _ _

/-- What can be seen is what is there, and can be seen later. -/
lemma sight_eq_ok (hp : ∀ s ∈ names, IsPlain s) (h : t.sight b path names s = .ok x) :
    permit b path = .ok () ∧ t.follow b names = .ok (b.place ++ names) ∧
      x = t.get? (b.place ++ (names ++ [s])) ∧
      (∀ (t' : FileTree) (place' : Place),
        t'.find b place' s = .ok (t'.get? (place' ++ [s]))) ∧
      ∀ t' : FileTree, t.LastsIn t' →
        t'.sight b path names s = .ok (t'.get? (b.place ++ (names ++ [s]))) := by
  unfold sight at h ⊢
  obtain ⟨_, hpermit, h⟩ := bind_eq_ok h
  obtain ⟨place, hf, h⟩ := bind_eq_ok h
  obtain rfl := follow_plain hp hf
  obtain ⟨hx, hfound⟩ := find_eq_ok h
  rw [List.append_assoc] at hx
  refine ⟨hpermit, hf, hx, hfound, fun t' hl => ?_⟩
  rw [hpermit, ok_bind, follow_lasts hl hp (by rw [hf]; nofun), hf, ok_bind, hfound,
    List.append_assoc]

lemma sight_of_permit (hpermit : permit b path = .ok ()) :
    t.sight b path names s = t.follow b names >>= fun place => t.find b place s := by
  unfold sight
  rw [hpermit]
  rfl

/-- To follow one more name is to go into what it stands for. -/
lemma follow_concat_of_permit (hp : ∀ x ∈ names ++ [s], IsPlain x)
    (hpermit : permit b path = .ok ()) :
    t.follow b (names ++ [s]) =
      t.sight b path names s >>= enter (b.place ++ (names ++ [s])) := by
  rw [List.forall_mem_append, List.forall_mem_singleton] at hp
  rw [follow_concat hp.2, sight_of_permit hpermit]
  cases hf : t.follow b names with
  | error e => rfl
  | ok place =>
    obtain rfl := follow_plain hp.1 hf
    rw [ok_bind, ok_bind, List.append_assoc]

end

end FileTree

end SavedState
