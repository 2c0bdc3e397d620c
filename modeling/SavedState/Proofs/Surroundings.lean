import SavedState.Proofs.Layers
import SavedState.Proofs.GrowingTrees

/-!
Where the settings file is looked for.

Unless a file is asked for, the settings file is the one in the working directory, or else the
nearest one in the directories above. So the working directory settles the configuration only if
it has the file itself, or no directory above can have it, or no file could do any good.
-/

namespace SavedState

namespace FileTree

/-- A directory is there, with all that it stands in. -/
def Stands (t : FileTree) (place : Place) : Prop :=
  ∀ front, front <+: place → t.get? front = some .directory

/-- Two trees hold the same in a directory, and in what stands in it. -/
def SameIn (place : Place) (t t' : FileTree) : Prop :=
  ∀ names, names ≠ [] → t'.get? (place ++ names) = t.get? (place ++ names)

variable {t : FileTree} {front rest : Place} {s name : String}

/-- A file beside the way to a directory is in nobody's way. -/
lemma Stands.put (h : t.Stands (front ++ s :: rest)) (hne : s ≠ name) (entry : FileEntry) :
    (t.put (front ++ [name]) entry).Stands (front ++ s :: rest) := by
  intro place hplace
  rw [get?_put (by simp), if_neg, h place hplace]
  rintro rfl
  rw [List.prefix_append_right_inj, List.cons_prefix_cons] at hplace
  exact hne hplace.1.symm

lemma sameIn_put (hne : s ≠ name) (entry : FileEntry) :
    SameIn (front ++ s :: rest) t (t.put (front ++ [name]) entry) := by
  intro names _
  rw [get?_put (by simp), if_neg]
  intro he
  rw [List.append_assoc, List.append_cancel_left_eq, List.cons_append, List.cons.injEq] at he
  exact hne he.1

end FileTree

/-! ### The directories around -/

namespace Host

lemma surroundings_nil {host : Host} (h : host.workingDirectory = []) :
    host.surroundings = [[]] := by
  simp [surroundings, h]

lemma surroundings_concat {host : Host} {front : Place} {s : String}
    (h : host.workingDirectory = front ++ [s]) :
    host.surroundings =
      host.workingDirectory :: { host with workingDirectory := front }.surroundings := by
  unfold surroundings
  dsimp only
  rw [List.range_succ_eq_map, List.map_cons, List.map_map, Nat.sub_zero, List.take_length, h,
    List.length_append, List.length_singleton]
  congr 1
  refine List.map_congr_left fun i hi => ?_
  rw [Function.comp_apply, List.take_append_of_le_length (by omega)]
  congr 1
  omega

end Host

namespace Configuration

open FileTree

/-- The settings file in a directory, if there is one. -/
def settingsIn? (t : FileTree) (place : Place) : Option (List UInt8) :=
  match t.get? (place ++ [fileName]) with
  | some (.file bytes) => some bytes
  | _ => none

/-- The configuration with a settings file, or without one. -/
def loadWith (environment : List (String × String)) (a : Arguments) (file : Option (List UInt8)) :
    Except RunError Configuration :=
  match fileLayer? file with
  | none => .error .configuration
  | some layer =>
    let layers := [layer, Layer.Environment.toLayer environment, overrides a]
    match ofLayer? (layers.foldl Layer.coverAll default.toLayer) with
    | some c => .ok c
    | none => .error .configuration

variable {host : Host} {a : Arguments} {t : FileTree} {place : Place}

lemma file?_fileName : t.file? ⟨place, false⟩ fileName = settingsIn? t place := by
  have hcut : FilePath.cutLast fileName = ("", fileName) := by decide
  have hfound : t.find ⟨place, false⟩ place fileName = .ok (t.get? (place ++ [fileName])) := by
    unfold find
    rw [if_neg (by decide), if_neg (by decide)]
  have hwalk : t.walk ⟨place, false⟩ "" = .ok place := rfl
  unfold FileTree.file? settingsIn?
  rw [hcut]
  dsimp only
  rw [if_neg (by decide), hwalk]
  unfold FileTree.read
  dsimp only [bind, Except.bind]
  rw [hfound]
  cases t.get? (place ++ [fileName]) with
  | none => rfl
  | some entry => cases entry <;> rfl

/-- Unless a file is asked for, the nearest one counts. -/
lemma load_eq_nearest (ha : a.config = none) : load host a =
    loadWith host.environment a (host.surroundings.findSome? (settingsIn? host.tree)) := by
  have hfile : file? host a = .ok (host.surroundings.findSome? (settingsIn? host.tree)) := by
    unfold file?
    rw [ha]
    simp only [file?_fileName]
  unfold load
  rw [hfile]
  rfl

/-- A file of no length settles as little as no file. -/
lemma loadWith_nil (environment : List (String × String)) (a : Arguments) :
    loadWith environment a (some []) = loadWith environment a none := by
  have hlayer : fileLayer? (some []) = fileLayer? none := by cbv
  unfold loadWith
  rw [hlayer]

/-- A file that is no text is an error, whatever else there is. -/
lemma loadWith_notText (environment : List (String × String)) (a : Arguments) :
    loadWith environment a (some [255]) = .error .configuration := by
  have hlayer : fileLayer? (some [255]) = none := by cbv
  unfold loadWith
  rw [hlayer]

lemma settingsIn?_of_sameIn {t' : FileTree} (h : SameIn place t t') :
    settingsIn? t' place = settingsIn? t place := by
  unfold settingsIn?
  rw [h [fileName] (List.cons_ne_nil _ _)]

/-! ### The nearest file -/

/-- The settings file of the nearest directory that has one. -/
def nearest? (host : Host) : Option (List UInt8) :=
  host.surroundings.findSome? (settingsIn? host.tree)

lemma nearest?_of_some {bytes : List UInt8}
    (h : settingsIn? host.tree host.workingDirectory = some bytes) :
    nearest? host = some bytes := by
  unfold nearest?
  rcases List.eq_nil_or_concat host.workingDirectory with hnil | ⟨front, s, hs⟩
  · rw [hnil] at h
    rw [Host.surroundings_nil hnil, List.findSome?_cons, h]
  · rw [List.concat_eq_append] at hs
    rw [Host.surroundings_concat hs, List.findSome?_cons, h]

/-- Directories without the file are passed over. -/
lemma nearest?_append {front rest : Place} (hwd : host.workingDirectory = front ++ rest)
    (hnone : ∀ mid s, mid ++ [s] <+: rest → settingsIn? host.tree (front ++ (mid ++ [s])) = none) :
    nearest? host = nearest? { host with workingDirectory := front } := by
  induction rest using List.reverseRecOn generalizing host with
  | nil =>
    rw [List.append_nil] at hwd
    rw [← hwd]
  | append_singleton rest s ih =>
    rw [← List.append_assoc] at hwd
    have hlast := hnone rest s List.prefix_rfl
    rw [← List.append_assoc, ← hwd] at hlast
    have hnext : nearest? host = nearest? { host with workingDirectory := front ++ rest } := by
      unfold nearest?
      rw [Host.surroundings_concat hwd, List.findSome?_cons, hlast]
    exact hnext.trans (ih rfl fun mid x hx => hnone mid x (hx.trans (List.prefix_append _ _)))

/-- A directory of that name leaves no place for the file. -/
lemma settingsIn?_of_stands (hstands : t.Stands place) {front : Place}
    (h : front ++ [fileName] <+: place) : settingsIn? t front = none := by
  unfold settingsIn?
  rw [hstands _ h]

/-- What is passed over where directories have the name of the file. -/
lemma settingsIn?_eq_none {front rest : Place} {s : String}
    (hstands : t.Stands (front ++ rest)) (hlast : settingsIn? t (front ++ rest) = none)
    (hrest : ∀ mid x, mid ≠ [] → mid ++ [x] <+: rest → x = fileName) (mid : Place)
    (h : mid ++ [s] <+: rest) : settingsIn? t (front ++ (mid ++ [s])) = none := by
  obtain ⟨more, hmore⟩ := h
  cases more with
  | nil =>
    rw [List.append_nil] at hmore
    rw [hmore]
    exact hlast
  | cons x more =>
    have hx : mid ++ [s] ++ [x] <+: rest := ⟨more, by rw [← hmore]; simp⟩
    refine settingsIn?_of_stands hstands ?_
    rw [List.append_assoc, List.prefix_append_right_inj, ← hrest (mid ++ [s]) x (by simp) hx]
    exact hx

lemma nearest?_of_all (hstands : host.tree.Stands host.workingDirectory)
    (hall : ∀ s ∈ host.workingDirectory, s = fileName) :
    nearest? host = settingsIn? host.tree host.workingDirectory := by
  cases h : settingsIn? host.tree host.workingDirectory with
  | some bytes => exact nearest?_of_some h
  | none =>
    have htop : nearest? { host with workingDirectory := [] } = settingsIn? host.tree [] := by
      unfold nearest?
      rw [Host.surroundings_nil rfl, List.findSome?_singleton]
    have hempty : host.workingDirectory = [] ++ host.workingDirectory := rfl
    rw [nearest?_append hempty fun mid s hm => ?_, htop]
    · cases hwd : host.workingDirectory with
      | nil =>
        rw [hwd] at h
        exact h
      | cons s rest =>
        rw [hwd] at hstands hall
        refine settingsIn?_of_stands hstands ?_
        rw [← hall s List.mem_cons_self]
        exact ⟨rest, rfl⟩
    · refine settingsIn?_eq_none hstands h (fun mid x _ hx => hall x ?_) mid hm
      exact hx.subset (by simp)

lemma exists_last_ne {name : String} {l : List String} (h : ¬∀ s ∈ l, s = name) :
    ∃ front s rest, l = front ++ s :: rest ∧ s ≠ name ∧ ∀ x ∈ rest, x = name := by
  induction l with
  | nil => exact absurd (List.forall_mem_nil _) h
  | cons s l ih =>
    by_cases hl : ∀ x ∈ l, x = name
    · have hs : s ≠ name := fun hs => h (List.forall_mem_cons.2 ⟨hs, hl⟩)
      exact ⟨[], s, l, rfl, hs, hl⟩
    · obtain ⟨front, x, rest, rfl, hx, hrest⟩ := ih hl
      exact ⟨s :: front, x, rest, rfl, hx, hrest⟩

/-- A file put beside the way to the working directory is the nearest one. -/
lemma nearest?_put {front rest : Place} {s : String}
    (hwd : host.workingDirectory = front ++ s :: rest) (hs : s ≠ fileName)
    (hrest : ∀ x ∈ rest, x = fileName) (hstands : host.tree.Stands host.workingDirectory)
    (hnone : settingsIn? host.tree host.workingDirectory = none) (bytes : List UInt8) :
    nearest? { host with tree := host.tree.put (front ++ [fileName]) (.file bytes) } =
      some bytes := by
  rw [hwd] at hstands hnone
  have hlast := hnone
  rw [← settingsIn?_of_sameIn (sameIn_put hs (.file bytes))] at hlast
  let planted : Host := { host with tree := host.tree.put (front ++ [fileName]) (.file bytes) }
  change nearest? planted = some bytes
  have hplanted : planted.workingDirectory = front ++ s :: rest := hwd
  rw [nearest?_append hplanted fun mid x hx =>
    settingsIn?_eq_none (hstands.put hs _) hlast (fun mid y hmid hy => ?_) mid hx]
  · refine nearest?_of_some ?_
    unfold settingsIn?
    dsimp only [planted]
    rw [get?_put (by simp), if_pos rfl]
  · obtain ⟨z, mid, rfl⟩ := List.exists_cons_of_ne_nil hmid
    rw [List.cons_append, List.cons_prefix_cons] at hy
    exact hrest y (hy.2.subset (by simp))

/-! ### What the working directory settles -/

/-- **The working directory settles the configuration just if no other file can matter.** Let no
settings file be asked for. Then what is loaded is the same for all trees that hold the same files
in the working directory just if it has the settings file itself, or all directories on the way to
it have the name of that file and leave no place for another, or nothing can be loaded whatever
the settings file says. The last case rests on `RunError.configuration`, which does not tell for
which reason a configuration is refused: there, two trees give the same result because both give
none. -/
theorem load_settled_in_working_directory_iff (ha : a.config = none)
    (hstands : host.tree.Stands host.workingDirectory) :
    (∀ tree : FileTree, tree.Stands host.workingDirectory →
        SameIn host.workingDirectory host.tree tree → load { host with tree } a = load host a) ↔
      (settingsIn? host.tree host.workingDirectory).isSome ∨
        (∀ s ∈ host.workingDirectory, s = fileName) ∨
        ∀ bytes, loadWith host.environment a (some bytes) = .error .configuration := by
  have hload : ∀ tree : FileTree, load { host with tree } a =
      loadWith host.environment a (nearest? { host with tree }) := fun _ => load_eq_nearest ha
  have hhost : load host a = loadWith host.environment a (nearest? host) := load_eq_nearest ha
  constructor
  · intro h
    by_cases hsome : (settingsIn? host.tree host.workingDirectory).isSome
    · exact .inl hsome
    by_cases hall : ∀ s ∈ host.workingDirectory, s = fileName
    · exact .inr (.inl hall)
    refine .inr (.inr fun bytes => ?_)
    obtain ⟨front, s, rest, hwd, hs, hrest⟩ := exists_last_ne hall
    have hput : ∀ bytes, load host a = loadWith host.environment a (some bytes) := by
      intro bytes
      have htree := h (host.tree.put (front ++ [fileName]) (.file bytes))
        (by rw [hwd] at hstands ⊢; exact hstands.put hs _) (by rw [hwd]; exact sameIn_put hs _)
      rw [← htree, hload, nearest?_put hwd hs hrest hstands (Option.not_isSome_iff_eq_none.1 hsome)]
    rw [← hput bytes, hput [255], loadWith_notText]
  · rintro (hsome | hall | herror) tree htree hsame
    · obtain ⟨bytes, hbytes⟩ := Option.isSome_iff_exists.1 hsome
      have hother : settingsIn? tree host.workingDirectory = some bytes := by
        rw [settingsIn?_of_sameIn hsame, hbytes]
      rw [hload, hhost, nearest?_of_some hbytes,
        @nearest?_of_some { host with tree } _ hother]
    · rw [hload, hhost, nearest?_of_all hstands hall,
        @nearest?_of_all { host with tree } htree hall]
      dsimp only
      rw [settingsIn?_of_sameIn hsame]
    · have hfails : ∀ file, loadWith host.environment a file = .error .configuration := by
        rintro (_ | bytes)
        · rw [← loadWith_nil, herror]
        · exact herror bytes
      rw [hload, hhost, hfails, hfails]

/-- A working directory without settings, and a file in the directory above that names another
output directory. -/
theorem load_settled_in_working_directory_iff_file_above :
    let a : Arguments := { Arguments.none with manifests := ["m"] }
    let bare : Host := ⟨[(["work"], .directory)], ["work"], [], .willing⟩
    let above : FileTree :=
      [(["work"], .directory), (["icicle.toml"], .file (Text.bytes "out_dir = \x22other\x22"))]
    a.config = none ∧ bare.tree.Stands bare.workingDirectory ∧
      above.Stands bare.workingDirectory ∧ SameIn bare.workingDirectory bare.tree above ∧
      (load bare a).toOption.map Configuration.outDir = some "generated" ∧
      (load { bare with tree := above } a).toOption.map Configuration.outDir = some "other" ∧
      ¬∀ tree : FileTree, tree.Stands bare.workingDirectory →
        SameIn bare.workingDirectory bare.tree tree → load { bare with tree } a = load bare a := by
  intro a bare above
  have hstands : ∀ tree : FileTree, tree.get? ["work"] = some .directory →
      tree.Stands bare.workingDirectory := by
    intro tree hwork front hfront
    rcases List.prefix_cons_iff.1 hfront with rfl | ⟨rest, rfl, hrest⟩
    · rfl
    · rw [List.prefix_nil.1 hrest]
      exact hwork
  have hsame : SameIn bare.workingDirectory bare.tree above := by
    rintro (_ | ⟨s, names⟩) hne
    · exact absurd rfl hne
    · rfl
  refine ⟨rfl, hstands _ rfl, hstands _ rfl, hsame, by decide +kernel, by decide +kernel,
    fun h => ?_⟩
  rcases (@load_settled_in_working_directory_iff bare a rfl (hstands _ rfl)).1 h with
    hsome | hall | herror
  · exact Bool.false_ne_true hsome
  · exact absurd (hall "work" (by decide)) (by decide)
  · have hempty : (loadWith [] a (some [])).toOption.isSome = true := by decide +kernel
    rw [herror []] at hempty
    exact Bool.false_ne_true hempty

end Configuration

end SavedState
