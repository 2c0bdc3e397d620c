import SavedState.Proofs.BrokenManifests
import SavedState.Proofs.PlainManifests
import SavedState.Proofs.Repetition
import SavedState.Proofs.Templates

/-!
A class in packages whose path is just too long.

In an empty directory its helper fails because of the path of its file, but not before the
directories of the packages have been made. So if it is tried once more, it fails because the last
of them is in the way.
-/

namespace SavedState

open FilePath OutputDirectory

/-! ### Paths that are just too long -/

namespace FileTree

variable {t : FileTree} {b : Base} {names : List String} {s : String}

/-- What is further down than the directories that are made sure of is left as it is. -/
lemma get?_ensureDirectories (hp : ∀ x ∈ names, IsPlain x) {q : Place}
    (hq : (b.place ++ names).length < q.length) :
    ((ensureDirectories b (through names)).run.run t).2.get? q = t.get? q := by
  have hensure : ∀ (front : List String) (x : String) (t : FileTree),
      (∀ y ∈ front ++ [x], IsPlain y) → (b.place ++ (front ++ [x])).length < q.length →
        ((ensureDirectory b (through (front ++ [x]))).run.run t).2.get? q = t.get? q := by
    intro front x t hp hq
    cases hx : t.sight b (through front) front x with
    | error e => rw [run_ensureDirectory_of_error hp hx]
    | ok found =>
      rw [run_ensureDirectory_of_ok hp hx]
      cases found with
      | some entry => rfl
      | none =>
        rw [Option.elim_none, get?_put (by simp), if_neg]
        rintro rfl
        exact Nat.lt_irrefl _ hq
  induction names using List.reverseRecOn with
  | nil => rfl
  | append_singleton names x ih =>
    have hfront := ih (fun y hy => hp y (List.mem_append_left _ hy)) (by simp at hq ⊢; omega)
    rw [run_ensureDirectories_concat hp]
    split
    · rw [Act.run_bind]
      cases hr : (ensureDirectories b (through names)).run.run t with
      | mk r t₁ =>
        rw [hr] at hfront
        cases r with
        | error e => exact hfront
        | ok _ => exact (hensure names x t₁ hp hq).trans hfront
    · exact hensure names x t hp hq

/-- Names that are short, in a path that is not too long. -/
lemma Followable.of_plain (hp : ∀ x ∈ names, IsPlain x) (hnul : ∀ x ∈ names, '\x00' ∉ x.toList)
    (hlength : ∀ x ∈ names, Text.byteLength x.toList ≤ maxName)
    (hpath : Text.byteLength (through names).toList ≤ maxPath) : Followable names := by
  refine ⟨hp, Text.not_mem_intercalate (by decide) hnul, hpath, fun x hx => ?_⟩
  by_cases hnil : names = []
  · rw [hnil] at hx
    cases List.mem_singleton.1 hx
    exact Nat.zero_le _
  · rw [parts_through hnil fun y hy => (hp y hy).slash_not_mem] at hx
    exact hlength x hx

/-- **A directory can be made though its path is too long**, where nothing is yet. -/
lemma run_ensureDirectories_of_tooLongByLast (hlong : TooLongByLast names)
    (hp : ∀ x ∈ names, IsPlain x) (hdot : ∀ x ∈ names, '.' ∉ x.toList)
    (hnul : ∀ x ∈ names, '\x00' ∉ x.toList)
    (hlength : ∀ x ∈ names, Text.byteLength x.toList ≤ maxName)
    (hempty : ∀ more, more ≠ [] → t.get? (b.place ++ more) = none) :
    ∃ t' : FileTree, (ensureDirectories b (through names)).run.run t = (.ok (), t') := by
  rcases List.eq_nil_or_concat names with rfl | ⟨front, x, rfl⟩
  · exact ⟨t, rfl⟩
  rw [List.concat_eq_append] at *
  have hall : ∀ {P : String → Prop}, (∀ y ∈ front ++ [x], P y) → ∀ y ∈ front, P y :=
    fun h y hy => h y (List.mem_append_left _ hy)
  have hfront : Followable front := by
    refine .of_plain (hall hp) (hall hnul) (hall hlength) ?_
    have hshort := hlong.1
    rwa [List.dropLast_concat] at hshort
  have htidy : t.Tidy b.place :=
    ⟨fun names s bytes h => by simp [hempty] at h, fun names s h => by simp [hempty] at h⟩
  obtain ⟨t₁, hr₁, -, -⟩ := run_ensureDirectories hfront (hall hdot) htidy
  have hnone : t₁.get? (b.place ++ (front ++ [x])) = none := by
    have := get?_ensureDirectories (t := t) (b := b) (hall hp) (q := b.place ++ (front ++ [x]))
      (by simp)
    rwa [hr₁, hempty _ (by simp)] at this
  have hsight₁ : t₁.sight b (through front) front x = .ok none := by
    have hfind : t₁.find b (b.place ++ front) x = .ok none := by
      unfold find
      rw [if_neg (hnul x (by simp)), if_neg (Nat.not_lt.2 (hlength x (by simp))),
        List.append_assoc, hnone]
    rw [sight_of_permit (hfront.follows.permit b),
      follow_of_ensureDirectories (hall hp) hr₁, ok_bind, hfind]
  rw [run_ensureDirectories_concat hp]
  split
  · rw [Act.run_bind, hr₁]
    dsimp only
    rw [run_ensureDirectory_of_ok hp hsight₁]
    exact ⟨_, rfl⟩
  · rename_i hsight
    cases hx : t.sight b (through front) front x with
    | error e =>
      -- the way is still not in sight after the directories on it are made
      have hk : e.kind ≠ .notFound := by
        intro hk
        rw [(sight_eq_notFound (hall hp) hx hk).2.2] at hx
        exact hsight hx
      have hgrows := onlyGrows_ensureDirectories (b := b) (through front) t
      rw [hr₁] at hgrows
      have hlater := sight_eq_error (hall hp) hx hk (.of_grows hgrows)
      rw [hsight₁] at hlater
      cases hlater
    | ok found =>
      obtain ⟨-, -, rfl, -⟩ := sight_eq_ok (hall hp) hx
      rw [run_ensureDirectory_of_ok hp hx, hempty _ (by simp)]
      exact ⟨_, rfl⟩

/-- **Where the path of a new directory is too long, the next attempt fails differently.** -/
lemma run_openBelow_of_tooLongByLast (hlong : TooLongByLast names)
    (hp : ∀ x ∈ names ++ [s], IsPlain x) (hdot : ∀ x ∈ names, '.' ∉ x.toList)
    (hnul : ∀ x ∈ names ++ [s], '\x00' ∉ x.toList)
    (hlength : ∀ x ∈ names, Text.byteLength x.toList ≤ maxName) (hr : t.Rooted)
    (hempty : ∀ more, more ≠ [] → t.get? (b.place ++ more) = none) :
    ∃ t', (openBelow b names s).run.run t = (.error .nameTooLong, t') ∧
      (openBelow b names s).run.run t' = (.error .fileExists, t') := by
  have hnames : ∀ x ∈ names, IsPlain x := fun x hx => hp x (List.mem_append_left _ hx)
  obtain ⟨t', hrun⟩ := run_ensureDirectories_of_tooLongByLast hlong hnames hdot
    (fun x hx => hnul x (List.mem_append_left _ hx)) hlength hempty
  cases hpermit : permit b (through names) with
  | ok _ => exact absurd (permit_eq_ok_iff.1 hpermit).2 (Nat.not_le.2 hlong.2)
  | error e =>
    have hrefused : permit b (through (names ++ [s])) = .error .nameTooLong := by
      obtain ⟨more, hmore⟩ := through_prefix names s
      have hnone : '\x00' ∉ (through (names ++ [s])).toList :=
        Text.not_mem_intercalate (by decide) hnul
      have hlength := hlong.2
      unfold permit
      rw [if_neg hnone, if_pos]
      rw [← hmore, Text.byteLength_append]
      omega
    obtain ⟨e', he', hopen⟩ := run_openEmpty_of_refused hp hpermit t'
    rw [hrefused] at he'
    cases he'
    refine ⟨t', ?_, ?_⟩
    · unfold openBelow
      rw [Act.run_bind, hrun]
      exact hopen
    · unfold openBelow
      rw [Act.run_bind, run_ensureDirectories_again hr hnames hrun (.refl t'),
        repeated_of_refused hpermit]

end FileTree

namespace Deposit

variable {o : OutputDirectory} {m : Medium} {x : Deposit} {w : Output}

/-- **A deposit whose directory has too long a path**, where nothing is yet, fails because of
that, but leaves the directory, and then fails because of the directory. -/
lemma perform_of_tooLongByLast (hx : x.IsNamed) (hlong : FileTree.TooLongByLast x.type.packages)
    (hnul : '\x00' ∉ x.suffix.toList)
    (hlength : ∀ s ∈ x.type.packages, Text.byteLength s.toList ≤ FileTree.maxName)
    (howner : w.owner? x.path = none) (hr : w.tree.Rooted)
    (hempty : ∀ names, names ≠ [] → w.tree.get? (o.place ++ names) = none) :
    ∃ tree, w.tree.Grows tree ∧
      (x.perform (o.sink m)).run.run w = (.error .nameTooLong, ⟨tree, w.created⟩) ∧
      (x.perform (o.sink m)).run.run ⟨tree, w.created⟩ =
        (.error .fileExists, ⟨tree, w.created⟩) := by
  have hdot : ∀ s ∈ x.type.packages, '.' ∉ s.toList :=
    fun s hs => x.type.dot_not_mem_segments s (List.mem_append_left _ hs)
  have hpart : isIdentifierPart '\x00' = false := by decide
  have hnul : ∀ s ∈ x.names, '\x00' ∉ s.toList := by
    unfold names DeclaringType.fileNames
    rw [List.forall_mem_append, List.forall_mem_singleton]
    refine ⟨fun s hs => (hx.type s (List.mem_append_left _ hs)).not_mem hpart, ?_⟩
    have hflat : '\x00' ∉ x.type.flat.toList := Text.not_mem_intercalate (by decide)
      fun s hs => (hx.type s (List.mem_append_right _ hs)).not_mem hpart
    simp [DeclaringType.fileName, hflat, hnul]
  obtain ⟨tree, hfirst, hagain⟩ := FileTree.run_openBelow_of_tooLongByLast (b := o.base) hlong
    (isPlain_names hx) hdot hnul hlength hr hempty
  have hrun := perform_of_not_opened (m := m) hx howner hfirst
  refine ⟨tree, ?_, hrun, perform_of_not_opened (w := ⟨tree, w.created⟩) hx howner hagain⟩
  have hends := ends o m w hx
  rw [hrun] at hends
  generalize hresult : (Except.error IoError.nameTooLong, (⟨tree, w.created⟩ : Output)) = result
    at hends
  cases hends with
  | owned owner _ h => cases howner.symm.trans h
  | failed e tree' _ _ hgrows =>
    cases hresult
    exact hgrows
  | stored tree' _ _ hgrows hlocates hd =>
    -- nothing has been created
    have hcreated := congrArg (fun r => r.2.created.length) hresult
    simp at hcreated

end Deposit

lemma ArtifactError.message_eq_iff {artifact : String} {e e' : IoError} :
    message ⟨artifact, e⟩ = message ⟨artifact, e'⟩ ↔ e.message = e'.message := by
  unfold message
  rw [String.append_right_inj]

/-! ### Runs for a single field -/

/-- A run for a single element emits the one helper of its type. -/
lemma Processor.run_single {u : Setup} {σ : Type} {sink : Sink σ} {x : Element} {r : FieldRecord}
    (hx : x.isEligible = true) (hr : x.build u.resolver = .ok r) (w : σ) :
    let h := run u sink [⟨[x], true⟩] w
    let emitted := u.driver.emit sink x.enclosing (FieldSet.empty.insert r) w
    h.world = emitted.2 ∧ h.diagnostics = emitted.1.2 := by
  have heligible : eligible [x] = [x] := List.filter_cons_of_pos hx
  have hrejections : rejections u.settings.validationSeverity [x] = [] := by
    have hcheck : x.check u.settings.validationSeverity = none := if_pos hx
    unfold rejections
    rw [List.filterMap_cons_none hcheck, List.filterMap_nil]
  have hcollect : Store.collect u.resolver .empty [x] =
      ⟨Store.empty.insert x.enclosing r, ⟨1, 0, 0⟩, []⟩ := by
    unfold Store.collect
    rw [List.foldl_cons, List.foldl_nil]
    unfold Collected.file
    rw [hr]
    rfl
  have hemission : emission u sink (Store.empty.insert x.enclosing r) [] true w =
      Pass.emit u sink ⟨[], w, [], []⟩ x.enclosing (FieldSet.empty.insert r) := by
    have hnone : (if u.settings.reemit = .attempt then none
        else Emitted.get? [] x.enclosing) = none := ite_self none
    unfold emission
    dsimp only
    rw [if_neg (by simp)]
    change Pass.visit u sink _ _ = _
    unfold Pass.visit
    rw [hnone]
  unfold run
  rw [List.foldl_cons, List.foldl_nil]
  unfold History.next fresh
  simp only [process_eq]
  rw [heligible, hrejections, hcollect, hemission]
  exact ⟨rfl, rfl⟩

namespace Host

variable {m : Medium} {settings : Settings} {o : OutputDirectory} {t tree : FileTree} {x : Element}
  {r : FieldRecord} {e : IoError}

/-- What is left and what is said where the only helper fails. -/
lemma generate_single (path : String) (hx : x.isEligible = true)
    (hr : x.build Resolver.bundle = .ok r)
    (hrun : (((setup settings).driver.deposit x.enclosing (FieldSet.empty.insert r)).perform
      (o.sink m)).run.run ⟨t, []⟩ = (.error e, ⟨tree, []⟩)) :
    (generate m settings o [(path, ⟨[x], true⟩)] t).2 = tree ∧
      (generate m settings o [(path, ⟨[x], true⟩)] t).1.artifacts = [] ∧
      (generate m settings o [(path, ⟨[x], true⟩)] t).1.diagnostics =
        [⟨settings.artifactSeverity, .type x.enclosing,
          ArtifactError.message ⟨(HelperName.of x.enclosing settings.suffix).artifact, e⟩⟩] := by
  rw [← Driver.perform_eq rfl] at hrun
  obtain ⟨hworld, hdiagnostics⟩ :=
    @Processor.run_single (setup settings) _ (o.sink m) x r hx hr ⟨t, []⟩
  rw [Driver.emit_of_error hrun] at hworld hdiagnostics
  have hartifacts : (generate m settings o [(path, ⟨[x], true⟩)] t).1.artifacts =
      (Processor.run (setup settings) (o.sink m) [⟨[x], true⟩] ⟨t, []⟩).world.created.map
        fun e => join o.path e.1 := rfl
  refine ⟨congrArg Output.tree hworld, ?_, hdiagnostics⟩
  rw [hartifacts, hworld]
  rfl

/-! ### A class in some packages -/

/-- A field of the class `B` in some packages. -/
def loneField (packages : List String) : Element :=
  ⟨⟨Text.dotted packages, "B"⟩, "x", .named "int", .empty⟩

/-- Nothing but a manifest. -/
def withManifest (text : String) : Host := ⟨[(["m"], .file (Text.bytes text))], [], [], .willing⟩

lemma load_withManifest (text : String) (manifests : List String) :
    Configuration.load (withManifest text) { Arguments.none with manifests } = .ok .default := by
  have hlayers : Configuration.ofLayer? (Layer.coverAll (Layer.coverAll
      (Layer.coverAll Configuration.default.toLayer []) (Layer.Environment.toLayer []))
      (Configuration.overrides Arguments.none)) = some .default := by decide +kernel
  exact Configuration.load_eq_ok.2 ⟨none, [], rfl, rfl, hlayers⟩

lemma rootedAt_withManifest (text : String) :
    (withManifest text).tree.RootedAt (withManifest text).base :=
  ⟨.of_top (List.forall_mem_singleton.2 (Nat.le_refl 1)), rfl⟩

/-- A manifest with that field. -/
def loneText (packages : List String) : String :=
  Manifest.plainText (Text.dotted (packages ++ ["B"])) "x" "int"

variable {packages : List String} (hp : ∀ s ∈ packages, IsName s)

include hp

lemma loadAll_lone (hclass : ∀ s ∈ packages, DeclaringType.isClassLike s = false) :
    Round.loadAll (withManifest (loneText packages)) ["m"] =
      .ok [("m", ⟨[loneField packages], true⟩)] := by
  have hnames : ∀ s ∈ packages ++ ["B"], IsName s := by
    rw [List.forall_mem_append, List.forall_mem_singleton]
    exact ⟨hp, by decide⟩
  have hm : Manifest.ofText (loneText packages) =
      .ok ⟨.empty, [⟨⟨Text.dotted packages, "B"⟩, "x", "int", .empty⟩]⟩ :=
    Manifest.ofText_plainText (DeclaringType.read_dotted hp hclass (by decide))
      (Json.isUnescaped_dotted hnames) (Json.isUnescaped_of_isName (by decide))
      (Json.isUnescaped_of_isName (by decide))
  obtain ⟨_, htype, rfl⟩ := exists_of_map_toOption (x := FieldType.read "int") (f := id)
    (b := .named "int") (by decide +kernel)
  have hholds : Manifest.Holds (withManifest (loneText packages)) "m" _ :=
    ⟨"m", [], _, by decide, rfl, rfl, Text.ofBytes?_bytes _⟩
  have hyields : Manifest.Yields (withManifest (loneText packages)) "m" [loneField packages] :=
    ⟨_, _, hholds, hm, .cons ⟨_, htype, rfl⟩ .nil⟩
  unfold Round.loadAll
  rw [hyields.load_eq]
  rfl

/-- **If the path of the packages is too long, the same is not said again.** -/
lemma generate_lone (hlong : FileTree.TooLongByLast packages)
    (hlength : ∀ s ∈ packages, Text.byteLength s.toList ≤ FileTree.maxName)
    (hs : '/' ∉ settings.suffix.toList) (hnul : '\x00' ∉ settings.suffix.toList)
    (hr : t.Rooted) (hempty : ∀ names, names ≠ [] → t.get? (o.place ++ names) = none) :
    let rounds := [("m", ⟨[loneField packages], true⟩)]
    ∃ tree, t.Grows tree ∧ (generate m settings o rounds t).2 = tree ∧
      (generate m settings o rounds t).1.artifacts = [] ∧
      (generate m settings o rounds tree).2 = tree ∧
      (generate m settings o rounds tree).1 ≠ (generate m settings o rounds t).1 := by
  let d : DeclaringType := ⟨Text.dotted packages, "B"⟩
  have hpackages : d.packages = packages :=
    Text.segments_dotted_filter fun s hs => ⟨(hp s hs).ne_empty, (hp s hs).dot_not_mem⟩
  have hd : d.IsNamed := by
    have hclasses : ∀ s ∈ Text.segments "B", IsName s := by decide
    unfold DeclaringType.IsNamed
    rw [d.segments_eq, hpackages, List.forall_mem_append]
    exact ⟨hp, hclasses⟩
  let r : FieldRecord := .of d "x" (.named "int") .int
  have hbuild : (loneField packages).build Resolver.bundle = .ok r := by
    have hint : Resolver.bundle (.named "int") = .ok .int := by decide +kernel
    unfold Element.build loneField
    rw [hint]
    rfl
  have hx : ((setup settings).driver.deposit d (FieldSet.empty.insert r)).IsNamed := ⟨hd, hs⟩
  obtain ⟨tree, hgrows, hfirst, hagain⟩ := Deposit.perform_of_tooLongByLast (o := o)
    (m := m) (w := ⟨t, []⟩) hx (hpackages.symm ▸ hlong) hnul (hpackages.symm ▸ hlength) rfl hr
    hempty
  obtain ⟨htree, hartifacts, hsaid⟩ := generate_single "m" rfl hbuild hfirst
  obtain ⟨htree', -, hsaid'⟩ := generate_single "m" rfl hbuild hagain
  refine ⟨tree, hgrows, htree, hartifacts, htree', fun he => ?_⟩
  rw [he, hsaid] at hsaid'
  have hmessage := congrArg Diagnostic.message (List.cons.inj hsaid').1
  have hreasons : IoError.nameTooLong.message ≠ IoError.fileExists.message := by decide
  exact hreasons (ArtifactError.message_eq_iff.1 hmessage)

end Host

/-! ### Long names -/

/-- Seventeen times a name of 250 letters. -/
def longPackages : List String := List.replicate 17 (String.ofList (List.replicate 250 'a'))

lemma toList_of_mem_longPackages {s : String} (h : s ∈ longPackages) :
    s.toList = List.replicate 250 'a' := by
  rw [List.eq_of_mem_replicate h, String.toList_ofList]

lemma isName_of_mem_longPackages {s : String} (h : s ∈ longPackages) : IsName s := by
  have hletters : isIdentifier (List.replicate 250 'a') = true := by decide +kernel
  unfold IsName
  rw [toList_of_mem_longPackages h]
  exact hletters

lemma isClassLike_of_mem_longPackages {s : String} (h : s ∈ longPackages) :
    DeclaringType.isClassLike s = false := by
  unfold DeclaringType.isClassLike
  rw [toList_of_mem_longPackages h]
  decide +kernel

lemma byteLength_of_mem_longPackages {s : String} (h : s ∈ longPackages) :
    Text.byteLength s.toList = 250 := by
  rw [toList_of_mem_longPackages h]
  decide +kernel

/-- The length of a path through one name, again and again. -/
lemma FilePath.byteLength_through_replicate (s : String) (n : Nat) :
    Text.byteLength (through (List.replicate (n + 1) s)).toList =
      n * (Text.byteLength s.toList + 1) + Text.byteLength s.toList := by
  induction n with
  | zero => simp
  | succ n ih =>
    have hslash : Text.byteLength "/".toList = 1 := by decide
    rw [List.replicate_succ', through_concat, before, if_neg (by simp), String.toList_append,
      String.toList_append, Text.byteLength_append, Text.byteLength_append, ih, hslash,
      Nat.succ_mul]
    omega

lemma longPackages_tooLongByLast : FileTree.TooLongByLast longPackages := by
  have hbytes : Text.byteLength (String.ofList (List.replicate 250 'a')).toList = 250 :=
    byteLength_of_mem_longPackages (List.mem_replicate.2 ⟨by decide, rfl⟩)
  unfold FileTree.TooLongByLast longPackages
  rw [List.dropLast_replicate, byteLength_through_replicate _ 15,
    byteLength_through_replicate _ 16, hbytes]
  decide

end SavedState
