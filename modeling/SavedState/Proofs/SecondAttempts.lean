import SavedState.Proofs.LastingTrees

/-!
Making directories and opening files once more.

If what an attempt has found and made lasts, then the next one sees the same, apart from what the
first one has made itself, and comes to the same end. There is one exception: a directory can be
made under a path that is too long to be looked up, as long as the path of the directory above is
not, and then it is in the way of the next attempt.
-/

namespace SavedState

open FilePath

namespace FileTree

/-! ### Making sure of a directory -/

section

variable {t t' : FileTree} {b : Base} {names : List String} {s : String} {e : IoError}
  {x : Option FileEntry} {r : Except IoError Unit}

lemma run_makeDirectory_of_error (hp : ∀ x ∈ names ++ [s], IsPlain x)
    (h : t.sight b (through names) names s = .error e) :
    (makeDirectory b (through (names ++ [s]))).run.run t = (.error e, t) := by
  rw [List.forall_mem_append, List.forall_mem_singleton] at hp
  unfold makeDirectory
  rw [Act.run_bind, Act.run_get, cutLast_through hp.2 names]
  dsimp only
  rw [isDots_eq_false hp.2, if_neg Bool.false_ne_true, if_neg Bool.false_ne_true,
    parent?_through hp.1 hp.2, Act.run_bind, Act.run_liftExcept, Option.getD_some]
  unfold sight at h
  cases hpermit : permit b (through names) with
  | error e' =>
    rw [hpermit] at h
    cases h
    rfl
  | ok _ =>
    rw [hpermit, ok_bind] at h
    dsimp only
    rw [Act.run_bind, Act.run_liftExcept, walk_before_eq hp.1]
    cases hf : t.follow b names with
    | error e' =>
      rw [hf] at h
      cases h
      rfl
    | ok place =>
      rw [hf, ok_bind] at h
      dsimp only
      rw [if_neg Bool.false_ne_true, Act.run_bind, Act.run_liftExcept, h]

lemma run_makeDirectory_of_ok (hp : ∀ x ∈ names ++ [s], IsPlain x)
    (h : t.sight b (through names) names s = .ok x) :
    (makeDirectory b (through (names ++ [s]))).run.run t =
      if x.isSome then (.error .fileExists, t)
      else (.ok (), t.put (b.place ++ (names ++ [s])) .directory) := by
  rw [List.forall_mem_append, List.forall_mem_singleton] at hp
  obtain ⟨hpermit, hf, rfl, hfound, -⟩ := sight_eq_ok hp.1 h
  unfold makeDirectory
  rw [Act.run_bind, Act.run_get, cutLast_through hp.2 names]
  dsimp only
  rw [isDots_eq_false hp.2, if_neg Bool.false_ne_true, if_neg Bool.false_ne_true,
    parent?_through hp.1 hp.2, Act.run_bind, Act.run_liftExcept, Option.getD_some, hpermit]
  dsimp only
  rw [Act.run_bind, Act.run_liftExcept, walk_before_eq hp.1, hf]
  dsimp only
  rw [if_neg Bool.false_ne_true, Act.run_bind, Act.run_liftExcept, hfound, List.append_assoc]
  cases t.get? (b.place ++ (names ++ [s])) <;> rfl

/-- What comes of making sure of a directory where something is. A path that is too long does not
show that it is a directory. -/
def secured (b : Base) (path : String) : FileEntry → Except IoError Unit
  | .directory => (permit b path).mapError fun _ => .fileExists
  | .file _ => .error .fileExists

lemma secured_eq_error {path : String} {entry : FileEntry} (h : secured b path entry = .error e) :
    e = .fileExists := by
  unfold secured at h
  cases entry with
  | directory =>
    cases hpermit : permit b path with
    | error e' =>
      rw [hpermit] at h
      exact (Except.error.inj h).symm
    | ok _ =>
      rw [hpermit] at h
      cases h
  | file bytes => exact (Except.error.inj h).symm

lemma holdsDirectory_through (hp : ∀ x ∈ names ++ [s], IsPlain x) :
    t.holdsDirectory b (through (names ++ [s])) =
      (permit b (through (names ++ [s])) >>= fun _ =>
        t.follow b (names ++ [s])).toOption.isSome := by
  have hpath : ¬through (names ++ [s]) = "" := by
    rw [through_eq_empty hp]
    simp
  unfold holdsDirectory openDirectory
  rw [if_neg hpath, walk_through_eq hp (by simp)]

lemma permit_eq_ok_iff {path : String} : permit b path = .ok () ↔
    '\x00' ∉ path.toList ∧ Text.byteLength path.toList ≤ maxPath := by
  unfold permit
  split
  · rename_i hnul
    exact iff_of_false nofun fun h => h.1 hnul
  · rename_i hnul
    split
    · rename_i hlength
      exact iff_of_false nofun fun h => Nat.not_lt.2 h.2 hlength
    · rename_i hlength
      exact iff_of_true rfl ⟨hnul, Nat.not_lt.1 hlength⟩

lemma permit_of_concat (h : permit b (through (names ++ [s])) = .ok ()) :
    permit b (through names) = .ok () := by
  obtain ⟨more, hmore⟩ := through_prefix names s
  rw [permit_eq_ok_iff, ← hmore, Text.byteLength_append] at h
  rw [permit_eq_ok_iff]
  exact ⟨fun hn => h.1 (List.mem_append_left _ hn), by omega⟩

lemma run_ensureDirectory_of_error (hp : ∀ x ∈ names ++ [s], IsPlain x)
    (h : t.sight b (through names) names s = .error e) :
    (ensureDirectory b (through (names ++ [s]))).run.run t = (.error e, t) := by
  have hholds : t.holdsDirectory b (through (names ++ [s])) = false := by
    rw [holdsDirectory_through hp, follow_concat (hp s (by simp))]
    cases hpermit : permit b (through (names ++ [s])) with
    | error e' => rfl
    | ok _ =>
      unfold sight at h
      rw [permit_of_concat hpermit, ok_bind] at h
      rw [ok_bind]
      cases hf : t.follow b names with
      | error e' => rfl
      | ok place =>
        rw [hf, ok_bind] at h
        rw [ok_bind, h]
        rfl
  unfold ensureDirectory
  rw [Act.run_tryCatch, run_makeDirectory_of_error hp h]
  dsimp only
  rw [Act.run_bind, Act.run_get]
  dsimp only
  rw [hholds, if_neg Bool.false_ne_true]
  rfl

lemma run_ensureDirectory_of_ok (hp : ∀ x ∈ names ++ [s], IsPlain x)
    (h : t.sight b (through names) names s = .ok x) :
    (ensureDirectory b (through (names ++ [s]))).run.run t =
      x.elim (.ok (), t.put (b.place ++ (names ++ [s])) .directory)
        fun entry => (secured b (through (names ++ [s])) entry, t) := by
  unfold ensureDirectory
  rw [Act.run_tryCatch, run_makeDirectory_of_ok hp h]
  cases x with
  | none => rfl
  | some entry =>
    obtain ⟨-, hf, hx, hfound, -⟩ := sight_eq_ok (fun x hx => hp x (List.mem_append_left _ hx)) h
    rw [Option.isSome_some, if_pos rfl, Option.elim_some]
    dsimp only
    rw [Act.run_bind, Act.run_get]
    dsimp only
    rw [holdsDirectory_through hp, follow_concat (hp s (by simp)), hf, ok_bind, hfound,
      List.append_assoc, ← hx]
    unfold secured
    cases entry with
    | directory => cases permit b (through (names ++ [s])) <;> rfl
    | file bytes => cases permit b (through (names ++ [s])) <;> rfl

/-- What making sure of the directories of some names comes to once more. -/
def repeated (b : Base) (names : List String) (r : Except IoError Unit) : Except IoError Unit :=
  r >>= fun _ => (permit b (through names)).mapError fun _ => .fileExists

lemma repeated_secured {entry entry' : FileEntry} (h : entry' = .directory ↔ entry = .directory) :
    secured b (through names) entry' = repeated b names (secured b (through names) entry) := by
  cases entry with
  | directory =>
    rw [h.2 rfl]
    unfold repeated secured
    cases permit b (through names) <;> rfl
  | file bytes =>
    cases entry' with
    | directory => cases h.1 rfl
    | file bytes' => rfl

lemma repeated_of_refused (h : permit b (through names) = .error e) :
    repeated b names (.ok ()) = .error .fileExists := by
  unfold repeated
  rw [h]
  rfl

/-- **Making sure of a directory once more**, where the way to it was there. -/
lemma run_ensureDirectory_again (hp : ∀ x ∈ names ++ [s], IsPlain x) {t₁ : FileTree}
    (hsight : t.sight b (through names) names s ≠ .error .notFound)
    (hrun : (ensureDirectory b (through (names ++ [s]))).run.run t = (r, t₁))
    (hl : t₁.LastsIn t') :
    t'.sight b (through names) names s ≠ .error .notFound ∧
      (ensureDirectory b (through (names ++ [s]))).run.run t' =
        (repeated b (names ++ [s]) r, t') := by
  have hnames : ∀ x ∈ names, IsPlain x := fun x hx => hp x (List.mem_append_left _ hx)
  have hne : b.place ++ (names ++ [s]) ≠ [] := by simp
  cases hx : t.sight b (through names) names s with
  | error e =>
    rw [run_ensureDirectory_of_error hp hx] at hrun
    cases hrun
    have hk : e.kind ≠ .notFound := by
      intro hk
      obtain ⟨-, -, rfl⟩ := sight_eq_notFound hnames hx hk
      exact hsight hx
    have hlater := sight_eq_error hnames hx hk hl
    rw [run_ensureDirectory_of_error hp hlater, hlater]
    refine ⟨?_, rfl⟩
    rintro ⟨⟩
    exact hk rfl
  | ok x =>
    obtain ⟨-, -, hget, -, hlater⟩ := sight_eq_ok hnames hx
    rw [run_ensureDirectory_of_ok hp hx] at hrun
    -- what was made is found now, and what was found is found again
    obtain ⟨entry, hthere, hsecured⟩ : ∃ entry,
        t'.sight b (through names) names s = .ok (some entry) ∧
          secured b (through (names ++ [s])) entry = repeated b (names ++ [s]) r := by
      cases x with
      | none =>
        cases hrun
        refine ⟨.directory, ?_, rfl⟩
        rw [hlater t' ((LastsIn.of_grows (.put_directory hget.symm)).trans hl),
          hl.directory (by rw [get?_put hne, if_pos rfl])]
      | some entry =>
        cases hrun
        obtain ⟨entry', hthere, hkind⟩ := hl _ _ hget.symm
        exact ⟨entry', by rw [hlater t' hl, hthere], repeated_secured hkind⟩
    rw [run_ensureDirectory_of_ok hp hthere, hthere, Option.elim_some, hsecured]
    exact ⟨nofun, rfl⟩

/-! ### Making sure of directories -/

lemma run_ensureDirectories_empty : (ensureDirectories b "").run.run t = (.ok (), t) := rfl

lemma run_ensureDirectory_notFound (hp : ∀ x ∈ names ++ [s], IsPlain x) {t₁ : FileTree}
    (hrun : (ensureDirectory b (through (names ++ [s]))).run.run t = (.error e, t₁)) :
    t₁ = t ∧ (e.kind = .notFound ↔ t.sight b (through names) names s = .error .notFound) := by
  have hnames : ∀ x ∈ names, IsPlain x := fun x hx => hp x (List.mem_append_left _ hx)
  cases hx : t.sight b (through names) names s with
  | error e' =>
    rw [run_ensureDirectory_of_error hp hx] at hrun
    cases hrun
    refine ⟨rfl, fun hk => ?_, fun he => ?_⟩
    · obtain ⟨-, -, rfl⟩ := sight_eq_notFound hnames hx hk
      rfl
    · cases he
      rfl
  | ok x =>
    rw [run_ensureDirectory_of_ok hp hx] at hrun
    cases x with
    | none => cases hrun
    | some entry =>
      have hsecured : secured b (through (names ++ [s])) entry = .error e :=
        congrArg Prod.fst hrun
      refine ⟨(congrArg Prod.snd hrun).symm, iff_of_false ?_ nofun⟩
      rw [secured_eq_error hsecured]
      nofun

lemma run_ensureDirectories_concat (hp : ∀ x ∈ names ++ [s], IsPlain x) :
    (ensureDirectories b (through (names ++ [s]))).run.run t =
      if t.sight b (through names) names s = .error .notFound then
        (ensureDirectories b (through names) >>= fun _ =>
          ensureDirectory b (through (names ++ [s]))).run.run t
      else (ensureDirectory b (through (names ++ [s]))).run.run t := by
  have hpath : ¬through (names ++ [s]) = "" := by
    rw [through_eq_empty hp]
    simp
  unfold ensureDirectories
  rw [above_through (fun x hx => hp x (List.mem_append_left _ hx)) (hp s (by simp)), ensureChain,
    if_neg hpath, Act.run_tryCatch]
  cases hrun : (ensureDirectory b (through (names ++ [s]))).run.run t with
  | mk r t₁ =>
    cases r with
    | ok _ =>
      rw [if_neg]
      intro hx
      rw [run_ensureDirectory_of_error hp hx] at hrun
      cases hrun
    | error e =>
      obtain ⟨rfl, hkind⟩ := run_ensureDirectory_notFound hp hrun
      dsimp only
      by_cases hk : e.kind = .notFound
      · rw [if_pos hk, if_pos (hkind.1 hk)]
      · rw [if_neg hk, if_neg (mt hkind.2 hk)]
        rfl

/-! ### What is in the way -/

/-- The way to a directory is there. -/
lemma follow_of_directory (hr : t.Rooted) (hp : ∀ s ∈ names, IsPlain s)
    (hd : t.get? (b.place ++ names) = some .directory) : t.follow b names ≠ .error .notFound := by
  induction names using List.reverseRecOn with
  | nil => nofun
  | append_singleton names s ih =>
    rw [List.forall_mem_append, List.forall_mem_singleton] at hp
    have hup : t.get? (b.place ++ names) = some .directory := by
      rw [← List.append_assoc] at hd
      exact hr _ _ _ hd
    rw [follow_concat hp.2]
    cases hf : t.follow b names with
    | error e =>
      rintro ⟨⟩
      exact ih hp.1 hup hf
    | ok place =>
      obtain rfl := follow_plain hp.1 hf
      rw [ok_bind]
      cases hx : t.find b (b.place ++ names) s with
      | error e =>
        rintro ⟨⟩
        exact (find_eq_error hx).1 rfl
      | ok x =>
        obtain ⟨rfl, -⟩ := find_eq_ok hx
        rw [List.append_assoc, hd]
        nofun

/-- A directory that has been made sure of can be followed to. -/
lemma follow_of_ensureDirectory (hp : ∀ x ∈ names ++ [s], IsPlain x)
    (hrun : (ensureDirectory b (through (names ++ [s]))).run.run t = (.ok (), t')) :
    permit b (through names) = .ok () ∧ (∀ (t' : FileTree) (place' : Place),
        t'.find b place' s = .ok (t'.get? (place' ++ [s]))) ∧
      t'.follow b (names ++ [s]) = .ok (b.place ++ (names ++ [s])) := by
  have hnames : ∀ x ∈ names, IsPlain x := fun x hx => hp x (List.mem_append_left _ hx)
  have hne : b.place ++ (names ++ [s]) ≠ [] := by simp
  cases hx : t.sight b (through names) names s with
  | error e =>
    rw [run_ensureDirectory_of_error hp hx] at hrun
    cases hrun
  | ok x =>
    obtain ⟨hpermit, hf, hget, hfound, -⟩ := sight_eq_ok hnames hx
    refine ⟨hpermit, hfound, ?_⟩
    rw [run_ensureDirectory_of_ok hp hx] at hrun
    obtain ⟨hl, hthere⟩ : t.LastsIn t' ∧
        t'.get? (b.place ++ (names ++ [s])) = some .directory := by
      cases x with
      | none =>
        cases hrun
        exact ⟨.of_grows (.put_directory hget.symm), by rw [get?_put hne, if_pos rfl]⟩
      | some entry =>
        have hsecured : secured b (through (names ++ [s])) entry = .ok () :=
          congrArg Prod.fst hrun
        have htree : t = t' := congrArg Prod.snd hrun
        subst htree
        cases entry with
        | directory => exact ⟨.refl t, hget.symm⟩
        | file bytes => cases hsecured
    rw [follow_concat (hp s (by simp)), follow_lasts hl hnames (by rw [hf]; nofun), hf, ok_bind,
      hfound, List.append_assoc, hthere]
    rfl

lemma exists_of_ensureDirectories (hp : ∀ x ∈ names ++ [s], IsPlain x)
    (hrun : (ensureDirectories b (through (names ++ [s]))).run.run t = (.ok (), t')) :
    ∃ t₀ : FileTree,
      (ensureDirectory b (through (names ++ [s]))).run.run t₀ = (.ok (), t') := by
  rw [run_ensureDirectories_concat hp] at hrun
  split at hrun
  · obtain ⟨_, t₀, -, hrun⟩ := Act.bind_eq_ok hrun
    exact ⟨t₀, hrun⟩
  · exact ⟨t, hrun⟩

lemma follow_of_ensureDirectories (hp : ∀ x ∈ names, IsPlain x)
    (hrun : (ensureDirectories b (through names)).run.run t = (.ok (), t')) :
    t'.follow b names = .ok (b.place ++ names) := by
  rcases List.eq_nil_or_concat names with rfl | ⟨front, s, rfl⟩
  · rw [follow_nil, List.append_nil]
  · rw [List.concat_eq_append] at hp hrun ⊢
    obtain ⟨t₀, hrun⟩ := exists_of_ensureDirectories hp hrun
    exact (follow_of_ensureDirectory hp hrun).2.2

/-- What is in the way of a directory that could be looked up. -/
lemma follow_of_ensureDirectory_error (hp : ∀ x ∈ names ++ [s], IsPlain x)
    (hpermit : permit b (through (names ++ [s])) = .ok ())
    (hrun : (ensureDirectory b (through (names ++ [s]))).run.run t = (.error e, t')) :
    t.follow b (names ++ [s]) = .error e ∨
      ∃ bytes, t.get? (b.place ++ (names ++ [s])) = some (.file bytes) := by
  rw [follow_concat_of_permit hp (permit_of_concat hpermit)]
  cases hx : t.sight b (through names) names s with
  | error e' =>
    rw [run_ensureDirectory_of_error hp hx] at hrun
    cases hrun
    exact .inl rfl
  | ok x =>
    have hget := (sight_eq_ok (fun x hx => hp x (List.mem_append_left _ hx)) hx).2.2.1
    rw [run_ensureDirectory_of_ok hp hx] at hrun
    rcases x with _ | _ | bytes
    · cases hrun
    · unfold secured at hrun
      rw [hpermit] at hrun
      cases hrun
    · exact .inr ⟨bytes, hget.symm⟩

/-- **What is in the way of new directories stays in the way.** -/
lemma follow_of_ensureDirectories_error (hr : t.Rooted) (hp : ∀ x ∈ names, IsPlain x)
    (hpermit : permit b (through names) = .ok ()) (hf : t.follow b names = .error .notFound)
    (hrun : (ensureDirectories b (through names)).run.run t = (.error e, t')) :
    e.kind ≠ .notFound ∧ t'.follow b names = .error e := by
  induction names using List.reverseRecOn generalizing t' with
  | nil => cases hf
  | append_singleton names s ih =>
    have hnames : ∀ x ∈ names, IsPlain x := fun x hx => hp x (List.mem_append_left _ hx)
    have hpermit' := permit_of_concat hpermit
    rw [run_ensureDirectories_concat hp] at hrun
    rw [follow_concat_of_permit hp hpermit'] at hf ⊢
    split at hrun
    · rename_i hsight
      rw [Act.run_bind] at hrun
      have hup := (sight_eq_notFound hnames hsight rfl).2.1
      have hgrows := onlyGrows_ensureDirectories (b := b) (through names) t
      cases hr₁ : (ensureDirectories b (through names)).run.run t with
      | mk r t₁ =>
        rw [hr₁] at hrun hgrows
        cases r with
        | error e₁ =>
          cases hrun
          obtain ⟨hk, hf₁⟩ := ih hnames hpermit' hup hr₁
          rw [sight_of_permit hpermit', hf₁]
          exact ⟨hk, rfl⟩
        | ok _ =>
          obtain ⟨rfl, hkind⟩ := run_ensureDirectory_notFound hp hrun
          have hf₁ := follow_of_ensureDirectories hnames hr₁
          rcases follow_of_ensureDirectory_error hp hpermit hrun with hfollow | ⟨bytes, hfile⟩
          · rw [← follow_concat_of_permit hp hpermit']
            refine ⟨fun hk => ?_, hfollow⟩
            have hx := hkind.1 hk
            rw [sight_of_permit hpermit', hf₁, ok_bind] at hx
            exact (find_eq_error hx).1 rfl
          · -- the file was there before, but then the way to it was there as well
            rw [(hgrows _).file_iff, ← List.append_assoc] at hfile
            exact absurd hup (follow_of_directory hr hnames (hr _ _ _ hfile))
    · rename_i hsight
      cases hx : t.sight b (through names) names s with
      | error e' =>
        rw [hx] at hf
        cases hf
        exact absurd hx hsight
      | ok x =>
        rw [run_ensureDirectory_of_ok hp hx] at hrun
        rw [hx] at hf
        rcases x with _ | _ | bytes
        · cases hrun
        · cases hf
        · cases hf

/-- **Making sure of directories once more.** -/
lemma run_ensureDirectories_again (hr : t.Rooted) (hp : ∀ x ∈ names, IsPlain x) {t₁ : FileTree}
    (hrun : (ensureDirectories b (through names)).run.run t = (r, t₁)) (hl : t₁.LastsIn t') :
    (ensureDirectories b (through names)).run.run t' = (repeated b names r, t') := by
  rcases List.eq_nil_or_concat names with rfl | ⟨names, s, rfl⟩
  · cases hrun
    rfl
  · rw [List.concat_eq_append] at hp hrun ⊢
    have hnames : ∀ x ∈ names, IsPlain x := fun x hx => hp x (List.mem_append_left _ hx)
    rw [run_ensureDirectories_concat hp] at hrun ⊢
    split at hrun
    · rename_i hsight
      obtain ⟨hpermit, hup, -⟩ := sight_eq_notFound hnames hsight rfl
      rw [Act.run_bind] at hrun
      cases hr₁ : (ensureDirectories b (through names)).run.run t with
      | mk r₁ t₂ =>
        rw [hr₁] at hrun
        cases r₁ with
        | error e₁ =>
          cases hrun
          obtain ⟨hk, hf₁⟩ := follow_of_ensureDirectories_error hr hnames hpermit hup hr₁
          have hne : t₁.sight b (through names) names s = .error e₁ := by
            rw [sight_of_permit hpermit, hf₁]
            rfl
          have hsight' := sight_eq_error hnames hne hk hl
          rw [if_neg, run_ensureDirectory_of_error hp hsight']
          · rfl
          · rw [hsight']
            rintro ⟨⟩
            exact hk rfl
        | ok _ =>
          have hf₁ := follow_of_ensureDirectories hnames hr₁
          have hsight₂ : t₂.sight b (through names) names s ≠ .error .notFound := by
            rw [sight_of_permit hpermit, hf₁, ok_bind]
            exact fun hx => (find_eq_error hx).1 rfl
          obtain ⟨hsight', hagain⟩ := run_ensureDirectory_again hp hsight₂ hrun hl
          rw [if_neg hsight', hagain]
    · rename_i hsight
      obtain ⟨hsight', hagain⟩ := run_ensureDirectory_again hp hsight hrun hl
      rw [if_neg hsight', hagain]

end

/-! ### Opening a file -/

section

variable {t t' : FileTree} {b : Base} {names : List String} {s : String} {e : IoError}
  {place : Place} {x : Option FileEntry}

lemma run_openEmpty_of_error (hp : ∀ x ∈ names ++ [s], IsPlain x)
    (h : t.sight b (through (names ++ [s])) names s = .error e) :
    (openEmpty b (through (names ++ [s]))).run.run t = (.error e, t) := by
  rw [List.forall_mem_append, List.forall_mem_singleton] at hp
  unfold openEmpty
  rw [Act.run_bind, Act.run_liftExcept]
  unfold sight at h
  cases hpermit : permit b (through (names ++ [s])) with
  | error e' =>
    rw [hpermit] at h
    cases h
    rfl
  | ok _ =>
    rw [hpermit, ok_bind] at h
    dsimp only
    rw [Act.run_bind, Act.run_get, cutLast_through hp.2 names]
    dsimp only
    rw [Act.run_bind, Act.run_liftExcept, walk_before_eq hp.1]
    cases hf : t.follow b names with
    | error e' =>
      rw [hf] at h
      cases h
      rfl
    | ok place =>
      rw [hf, ok_bind] at h
      dsimp only
      rw [isDots_eq_false hp.2, if_neg Bool.false_ne_true, Act.run_bind, Act.run_liftExcept, h]

/-- If the path of a directory is refused, then so are the paths of its files. -/
lemma run_openEmpty_of_refused (hp : ∀ x ∈ names ++ [s], IsPlain x)
    (h : permit b (through names) = .error e) (t : FileTree) :
    ∃ e', permit b (through (names ++ [s])) = .error e' ∧
      (openEmpty b (through (names ++ [s]))).run.run t = (.error e', t) := by
  cases hpermit : permit b (through (names ++ [s])) with
  | ok _ =>
    rw [permit_of_concat hpermit] at h
    cases h
  | error e' =>
    have hsight : t.sight b (through (names ++ [s])) names s = .error e' := by
      unfold sight
      rw [hpermit]
      rfl
    exact ⟨e', rfl, run_openEmpty_of_error hp hsight⟩

lemma run_openEmpty_of_ok (hp : ∀ x ∈ names ++ [s], IsPlain x)
    (h : t.sight b (through (names ++ [s])) names s = .ok x) :
    (openEmpty b (through (names ++ [s]))).run.run t =
      if x = some .directory then (.error .isADirectory, t)
      else (.ok (b.place ++ (names ++ [s])),
        t.put (b.place ++ (names ++ [s])) (.file [])) := by
  rw [List.forall_mem_append, List.forall_mem_singleton] at hp
  obtain ⟨hpermit, hf, rfl, hfound, -⟩ := sight_eq_ok hp.1 h
  unfold openEmpty
  rw [Act.run_bind, Act.run_liftExcept, hpermit]
  dsimp only
  rw [Act.run_bind, Act.run_get, cutLast_through hp.2 names]
  dsimp only
  rw [Act.run_bind, Act.run_liftExcept, walk_before_eq hp.1, hf]
  dsimp only
  rw [isDots_eq_false hp.2, if_neg Bool.false_ne_true, Act.run_bind, Act.run_liftExcept, hfound,
    List.append_assoc]
  rcases t.get? (b.place ++ (names ++ [s])) with _ | _ | _ <;> rfl

/-- **Opening a file once more**, where the way to it was there. -/
lemma run_openEmpty_again (hp : ∀ x ∈ names ++ [s], IsPlain x) {t₁ : FileTree}
    {r : Except IoError Place} (hf : t.follow b names = .ok (b.place ++ names))
    (hrun : (openEmpty b (through (names ++ [s]))).run.run t = (r, t₁)) (hl : t₁.LastsIn t') :
    (openEmpty b (through (names ++ [s]))).run.run t' =
      (r, if r.toOption.isSome then t'.put (b.place ++ (names ++ [s])) (.file []) else t') := by
  have hnames : ∀ x ∈ names, IsPlain x := fun x hx => hp x (List.mem_append_left _ hx)
  have hne : b.place ++ (names ++ [s]) ≠ [] := by simp
  cases hx : t.sight b (through (names ++ [s])) names s with
  | error e =>
    rw [run_openEmpty_of_error hp hx] at hrun
    cases hrun
    have hk : e.kind ≠ .notFound := by
      intro hk
      rw [(sight_eq_notFound hnames hx hk).2.1] at hf
      cases hf
    rw [run_openEmpty_of_error hp (sight_eq_error hnames hx hk hl)]
    rfl
  | ok x =>
    obtain ⟨-, -, rfl, -, hlater⟩ := sight_eq_ok hnames hx
    rw [run_openEmpty_of_ok hp hx] at hrun
    by_cases hd : t.get? (b.place ++ (names ++ [s])) = some .directory
    · rw [if_pos hd] at hrun
      cases hrun
      rw [run_openEmpty_of_ok hp (hlater t' hl), if_pos (hl.directory hd)]
      rfl
    · rw [if_neg hd] at hrun
      cases hrun
      obtain ⟨entry, hthere, hkind⟩ :=
        hl (b.place ++ (names ++ [s])) (.file []) (by rw [get?_put hne, if_pos rfl])
      rw [run_openEmpty_of_ok hp (hlater t' ((LastsIn.put_file hne hd []).trans hl)), if_neg]
      · rfl
      · rw [hthere]
        rintro ⟨⟩
        cases hkind.1 rfl

/-- Makes sure of the directories that a file is in, and opens it. -/
def openBelow (b : Base) (names : List String) (s : String) : Act FileTree Place := do
  ensureDirectories b (through names)
  openEmpty b (through (names ++ [s]))

lemma openBelow_preserves_rootedAt : (openBelow b names s).Preserves (RootedAt b) :=
  (preserves_ensureDirectories preserves_rootedAt _).bind fun _ => openEmpty_preserves_rootedAt _

/-- A file that is opened is empty, and where the names lead. -/
lemma openBelow_eq_ok (hp : ∀ x ∈ names ++ [s], IsPlain x)
    (hrun : (openBelow b names s).run.run t = (.ok place, t')) :
    place = b.place ++ (names ++ [s]) ∧ t'.get? place = some (.file []) := by
  have hne : b.place ++ (names ++ [s]) ≠ [] := by simp
  obtain ⟨_, t₀, -, hrun⟩ := Act.bind_eq_ok hrun
  cases hx : t₀.sight b (through (names ++ [s])) names s with
  | error e =>
    rw [run_openEmpty_of_error hp hx] at hrun
    cases hrun
  | ok x =>
    rw [run_openEmpty_of_ok hp hx] at hrun
    split at hrun
    · cases hrun
    · cases hrun
      exact ⟨rfl, by rw [get?_put hne, if_pos rfl]⟩

/-- Names whose path is too long, while the path of those before the last one is not. -/
def TooLongByLast (names : List String) : Prop :=
  Text.byteLength (through names.dropLast).toList ≤ maxPath ∧
    maxPath < Text.byteLength (through names).toList

instance (names : List String) : Decidable (TooLongByLast names) :=
  inferInstanceAs (Decidable (_ ∧ _))

/-- A directory that has been made sure of can be looked up, or its path is just too long. -/
lemma permit_of_ensureDirectories (hp : ∀ x ∈ names, IsPlain x)
    (hrun : (ensureDirectories b (through names)).run.run t = (.ok (), t')) :
    permit b (through names) = .ok () ∨ TooLongByLast names := by
  rcases List.eq_nil_or_concat names with rfl | ⟨names, s, rfl⟩
  · exact .inl rfl
  · rw [List.concat_eq_append] at hp hrun ⊢
    obtain ⟨t₀, hrun⟩ := exists_of_ensureDirectories hp hrun
    obtain ⟨hpermit, hfound, -⟩ := follow_of_ensureDirectory hp hrun
    rw [permit_eq_ok_iff] at hpermit ⊢
    unfold TooLongByLast
    rw [List.dropLast_concat]
    by_cases hlength : Text.byteLength (through (names ++ [s])).toList ≤ maxPath
    · have hnul : '\x00' ∉ s.toList := fun hm => by
        have hs := hfound t₀ []
        unfold find at hs
        rw [if_pos hm] at hs
        cases hs
      refine .inl ⟨?_, hlength⟩
      rw [through_concat, before, String.toList_append, List.mem_append]
      refine not_or.2 ⟨?_, hnul⟩
      split
      · simp
      · simp [hpermit.1]
    · exact .inr ⟨hpermit.2, Nat.not_le.1 hlength⟩

/-- **Opening a file with its directories once more.** It comes to the same, apart from what is
said about directories whose path is just too long. -/
lemma run_openBelow_again (hr : t.Rooted) (hp : ∀ x ∈ names ++ [s], IsPlain x) {t₁ : FileTree}
    {r : Except IoError Place} (hrun : (openBelow b names s).run.run t = (r, t₁))
    (hl : t₁.LastsIn t') :
    (openBelow b names s).run.run t' =
        (r, if r.toOption.isSome then t'.put (b.place ++ (names ++ [s])) (.file []) else t') ∨
      TooLongByLast names ∧ r.toOption.isNone ∧
        (openBelow b names s).run.run t' = (.error .fileExists, t') := by
  have hnames : ∀ x ∈ names, IsPlain x := fun x hx => hp x (List.mem_append_left _ hx)
  unfold openBelow at hrun ⊢
  rw [Act.run_bind] at hrun ⊢
  cases hr₀ : (ensureDirectories b (through names)).run.run t with
  | mk r₀ t₀ =>
    rw [hr₀] at hrun
    cases r₀ with
    | error e =>
      cases hrun
      rw [run_ensureDirectories_again hr hnames hr₀ hl]
      exact .inl rfl
    | ok _ =>
      have hf := follow_of_ensureDirectories hnames hr₀
      dsimp only at hrun
      have hl₀ : t₀.LastsIn t₁ := by
        rcases openEmpty_cases b (through (names ++ [s])) t₀ with
          ⟨e, he⟩ | ⟨place, hlocates, hd, he⟩
        · rw [hrun] at he
          cases he
          exact .refl _
        · rw [hrun] at he
          cases he
          obtain ⟨up, -, hplace⟩ := hlocates.walked
          exact .put_file (by simp [hplace]) hd []
      rw [run_ensureDirectories_again hr hnames hr₀ (hl₀.trans hl)]
      cases hpermit : permit b (through names) with
      | ok _ =>
        have hdone : repeated b names (.ok ()) = .ok () := by
          unfold repeated
          rw [hpermit]
          rfl
        rw [hdone]
        exact .inl (run_openEmpty_again hp hf hrun hl)
      | error e =>
        have hlong := (permit_of_ensureDirectories hnames hr₀).resolve_left (by rw [hpermit]; nofun)
        obtain ⟨e', -, hrun'⟩ := run_openEmpty_of_refused hp hpermit t₀
        rw [hrun'] at hrun
        cases hrun
        rw [repeated_of_refused hpermit]
        exact .inr ⟨hlong, rfl, rfl⟩

end

end FileTree

end SavedState
