import Mathlib.Tactic.Common
import SavedState.HelperName

/-!
Declaring types as they come out of a text: a package and a name that are made of identifiers.

Such types are told apart by the names of their artifacts. The names of their helper classes
tell less, since a dollar sign may stand in an identifier as well as between two.
-/

namespace SavedState

namespace Text

lemma segments_dotted_filter {names : List String} (h : ∀ s ∈ names, s ≠ "" ∧ '.' ∉ s.toList) :
    (segments (dotted names)).filter (fun s => s ≠ "") = names := by
  by_cases hne : names = []
  · subst hne
    rfl
  · rw [segments_dotted hne fun s hs => (h s hs).2, List.filter_eq_self]
    intro s hs
    simpa using (h s hs).1

lemma dot_not_mem_of_mem_segments {s n : String} (h : n ∈ segments s) : '.' ∉ n.toList := by
  obtain ⟨p, hp, rfl⟩ := List.mem_map.1 h
  rw [String.toList_ofList]
  exact not_mem_of_mem_parts hp

end Text

/-- A name in a declaring type. -/
def IsName (s : String) : Prop := isIdentifier s.toList = true

instance (s : String) : Decidable (IsName s) :=
  inferInstanceAs (Decidable (isIdentifier s.toList = true))

namespace IsName

variable {s : String}

lemma ne_empty (h : IsName s) : s ≠ "" := by
  rintro rfl
  exact Bool.false_ne_true h

lemma not_mem (h : IsName s) {c : Char} (hc : isIdentifierPart c = false) : c ∉ s.toList := by
  intro hm
  have := List.all_eq_true.1 (all_part_of_isIdentifier h) c hm
  rw [hc] at this
  exact Bool.false_ne_true this

lemma dot_not_mem (h : IsName s) : '.' ∉ s.toList := h.not_mem isIdentifierPart_dot

lemma slash_not_mem (h : IsName s) : '/' ∉ s.toList := h.not_mem (by decide)

end IsName

namespace DeclaringType

/-- The names in front of the class. -/
def packages (d : DeclaringType) : List String := (Text.segments d.package).filter fun s => s ≠ ""

/-- The names of the class and of the classes around it. -/
def classes (d : DeclaringType) : List String := Text.segments d.name

/-- Whether all segments are names. -/
def IsNamed (d : DeclaringType) : Prop := ∀ s ∈ d.segments, IsName s

instance (d : DeclaringType) : Decidable d.IsNamed :=
  inferInstanceAs (Decidable (∀ s ∈ d.segments, IsName s))

structure IsProper (d : DeclaringType) : Prop where
  package : d.package = Text.dotted d.packages
  names : ∀ s ∈ d.segments, IsName s

lemma IsProper.isNamed {d : DeclaringType} (h : d.IsProper) : d.IsNamed := h.names

lemma segments_eq (d : DeclaringType) : d.segments = d.packages ++ d.classes := rfl

lemma classes_ne_nil (d : DeclaringType) : d.classes ≠ [] := Text.segments_ne_nil d.name

lemma segments_ne_nil (d : DeclaringType) : d.segments ≠ [] :=
  List.append_ne_nil_of_right_ne_nil _ d.classes_ne_nil

variable {d t : DeclaringType}

/-- Segments are split where the first one looks like a class, or before the last one. -/
lemma ofSegments_append {packages classes : List String}
    (hp : ∀ s ∈ packages, isClassLike s = false)
    (hc : classes.length = 1 ∨ ∃ s ∈ classes.head?, isClassLike s = true) :
    ofSegments (packages ++ classes) = ⟨Text.dotted packages, Text.dotted classes⟩ := by
  have hfind : (packages ++ classes).findIdx isClassLike =
      classes.findIdx isClassLike + packages.length := by
    rw [List.findIdx_append, List.findIdx_eq_length_of_false hp, if_neg (Nat.lt_irrefl _)]
  have hsplit : (if (packages ++ classes).findIdx isClassLike < (packages ++ classes).length then
      (packages ++ classes).findIdx isClassLike else (packages ++ classes).length - 1) =
      packages.length := by
    rw [hfind, List.length_append]
    cases classes with
    | nil => simp at hc
    | cons c classes =>
      rw [List.findIdx_cons]
      cases hlike : isClassLike c with
      | true => simp
      | false =>
        have hnil : classes = [] := by simpa [hlike] using hc
        simp [hnil, Nat.add_comm]
  unfold ofSegments
  dsimp only
  rw [hsplit, List.take_left, List.drop_left]

/-- Segments have a place where the class begins. -/
lemma exists_split {names : List String} (h : names ≠ []) :
    ∃ packages classes, names = packages ++ classes ∧
    (∀ s ∈ packages, isClassLike s = false) ∧
    (classes.length = 1 ∨ ∃ s ∈ classes.head?, isClassLike s = true) := by
  induction names with
  | nil => exact absurd rfl h
  | cons n names ih =>
    cases hlike : isClassLike n with
    | true => exact ⟨[], n :: names, rfl, by simp, .inr ⟨n, rfl, hlike⟩⟩
    | false =>
      cases names with
      | nil => exact ⟨[], [n], rfl, by simp, .inl rfl⟩
      | cons m names =>
        obtain ⟨packages, classes, hsplit, hp, hc⟩ := ih (List.cons_ne_nil m names)
        refine ⟨n :: packages, classes, by rw [hsplit, List.cons_append], ?_, hc⟩
        exact List.forall_mem_cons.2 ⟨hlike, hp⟩

lemma isProper_ofSegments {names : List String} (hne : names ≠ []) (h : ∀ s ∈ names, IsName s) :
    (ofSegments names).IsProper ∧ (ofSegments names).segments = names := by
  obtain ⟨packages, classes, rfl, hp, hc⟩ := exists_split hne
  have hsplit := ofSegments_append hp hc
  have hpackages : (ofSegments (packages ++ classes)).packages = packages := by
    rw [hsplit]
    refine Text.segments_dotted_filter fun s hs => ?_
    have := h s (List.mem_append_left _ hs)
    exact ⟨this.ne_empty, this.dot_not_mem⟩
  have hclasses : (ofSegments (packages ++ classes)).classes = classes := by
    rw [hsplit]
    refine Text.segments_dotted ?_ fun s hs => (h s (List.mem_append_right _ hs)).dot_not_mem
    rintro rfl
    simp at hc
  have hsegments : (ofSegments (packages ++ classes)).segments = packages ++ classes := by
    rw [segments_eq, hpackages, hclasses]
  refine ⟨⟨?_, ?_⟩, hsegments⟩
  · rw [hpackages, hsplit]
  · rw [hsegments]
    exact h

/-- A text is read when its segments are names. -/
lemma read_ok_iff {s : String} : read s = .ok d ↔
    (∀ n ∈ Text.segments s, IsName n) ∧ ofSegments (Text.segments s) = d := by
  unfold read
  dsimp only
  split
  · rename_i hall
    exact ⟨fun h => ⟨fun n hn => List.all_eq_true.1 hall n hn, Except.ok.inj h⟩,
      fun h => congrArg _ h.2⟩
  · rename_i hall
    exact ⟨fun h => (nomatch h), fun h => absurd (List.all_eq_true.2 h.1) hall⟩

/-- What is read from a text is proper. -/
lemma isProper_of_read {s : String} (h : read s = .ok d) : d.IsProper := by
  obtain ⟨hnames, rfl⟩ := read_ok_iff.1 h
  exact (isProper_ofSegments (Text.segments_ne_nil s) hnames).1

/-- A type is read from its packages, which do not look like classes, and its name. -/
lemma read_dotted {packages : List String} {name : String} (hp : ∀ s ∈ packages, IsName s)
    (hclass : ∀ s ∈ packages, isClassLike s = false) (hn : IsName name) :
    read (Text.dotted (packages ++ [name])) = .ok ⟨Text.dotted packages, name⟩ := by
  have hnames : ∀ s ∈ packages ++ [name], IsName s := by
    rw [List.forall_mem_append, List.forall_mem_singleton]
    exact ⟨hp, hn⟩
  have hsegments : Text.segments (Text.dotted (packages ++ [name])) = packages ++ [name] :=
    Text.segments_dotted (by simp) fun s hs => (hnames s hs).dot_not_mem
  have hsingle : Text.dotted [name] = name := String.intercalate_singleton
  rw [read_ok_iff, hsegments, ofSegments_append hclass (.inl rfl), hsingle]
  exact ⟨hnames, rfl⟩

/-! ### Qualified names -/

/-- Whether no segment of the package is empty. -/
def IsGapless (d : DeclaringType) : Prop := d.package = "" ∨ "" ∉ Text.segments d.package

instance (d : DeclaringType) : Decidable d.IsGapless := inferInstanceAs (Decidable (_ ∨ _))

lemma dot_not_mem_segments (d : DeclaringType) : ∀ s ∈ d.segments, '.' ∉ s.toList := by
  intro s hs
  rw [segments_eq] at hs
  rcases List.mem_append.1 hs with hs | hs
  · exact Text.dot_not_mem_of_mem_segments (List.mem_filter.1 hs).1
  · exact Text.dot_not_mem_of_mem_segments hs

lemma IsProper.isGapless (h : d.IsProper) : d.IsGapless := by
  have hnames : ∀ s ∈ d.packages, IsName s := fun s hs => h.names s (List.mem_append_left _ hs)
  by_cases hpackages : d.packages = []
  · left
    rw [h.package, hpackages]
    rfl
  · right
    intro hempty
    rw [h.package, Text.segments_dotted hpackages fun s hs => (hnames s hs).dot_not_mem] at hempty
    exact (hnames "" hempty).ne_empty rfl

namespace IsGapless

lemma package_eq (h : d.IsGapless) : d.package = Text.dotted d.packages := by
  rcases h with h | h
  · have hpackages : d.packages = [] := by
      unfold packages
      rw [h]
      rfl
    rw [h, hpackages]
    rfl
  · have hpackages : d.packages = Text.segments d.package := by
      unfold packages
      rw [List.filter_eq_self]
      intro s hs
      rw [decide_eq_true_eq]
      rintro rfl
      exact h hs
    rw [hpackages, Text.dotted_segments]

lemma qualified_eq (h : d.IsGapless) : d.qualified = Text.dotted d.segments := by
  have hname : d.name = Text.dotted d.classes := (Text.dotted_segments d.name).symm
  unfold qualified
  split
  · rename_i hpackage
    have hpackages : d.packages = [] := by
      unfold packages
      rw [hpackage]
      rfl
    rw [segments_eq, hpackages, List.nil_append, ← hname]
  · rename_i hpackage
    have hpackages : d.packages ≠ [] := by
      intro hnil
      rw [h.package_eq, hnil] at hpackage
      exact hpackage rfl
    rw [segments_eq, Text.dotted,
      String.intercalate_append_of_ne_nil hpackages d.classes_ne_nil]
    exact congrArg₂ (fun p n => p ++ "." ++ n) h.package_eq hname

/-- The qualified name tells all segments. -/
lemma qualified_eq_iff (hd : d.IsGapless) (ht : t.IsGapless) :
    d.qualified = t.qualified ↔ d.same t = true := by
  have hsegments : ∀ c : DeclaringType, Text.segments (Text.dotted c.segments) = c.segments :=
    fun c => Text.segments_dotted c.segments_ne_nil c.dot_not_mem_segments
  rw [hd.qualified_eq, ht.qualified_eq, same_iff]
  refine ⟨fun h => ?_, congrArg _⟩
  rw [← hsegments d, h, hsegments t]

end IsGapless

lemma qualified_eq (h : d.IsProper) : d.qualified = Text.dotted d.segments :=
  h.isGapless.qualified_eq

lemma qualified_eq_of_same (hd : d.IsProper) (ht : t.IsProper) (h : d.same t = true) :
    d.qualified = t.qualified :=
  (hd.isGapless.qualified_eq_iff ht.isGapless).2 h

/-- The fields of a type have keys of their own, however the type is spelled. -/
lemma fieldKey_eq_iff (hd : d.IsProper) (ht : t.IsProper) (h : d.same t = true) {m n : String} :
    d.fieldKey m = t.fieldKey n ↔ m = n := by
  rw [fieldKey, fieldKey, qualified_eq_of_same hd ht h, String.append_right_inj]

/-- Proper types that have one qualified name are the same. -/
lemma same_of_qualified (hd : d.IsProper) (ht : t.IsProper) (h : d.qualified = t.qualified) :
    d.same t = true :=
  (hd.isGapless.qualified_eq_iff ht.isGapless).1 h

end DeclaringType

end SavedState
