import SavedState.Diagnostic
import SavedState.Json.Quoted
import SavedState.Proofs.PlainManifests

/-!
The split of a qualified name into a package and a class.

A text is read as a declaring type when all its segments are names, and its package ends in the
one place where the class begins. A type whose package ends elsewhere is written in the same text
and comes back in that split. An empty segment is no name, so the text of a type that has one in
its package is not read.
-/

namespace SavedState

/-- Whether a text starts with one of the letters from A to Z. -/
def StartsUpper (s : String) : Prop := ∃ c ∈ s.toList.head?, 'A' ≤ c ∧ c ≤ 'Z'

/-- A list of segments starts as its first segment does. -/
lemma startsUpper_dotted (s : String) (names : List String) :
    StartsUpper (Text.dotted (s :: names)) ↔ StartsUpper s := by
  cases names with
  | nil => rw [Text.dotted, String.intercalate_singleton]
  | cons n names =>
    have hdot : ¬('A' ≤ '.') := by decide
    unfold StartsUpper
    rw [Text.dotted, String.intercalate_cons_cons, String.toList_append, String.toList_append]
    cases s.toList with
    | nil => simp [hdot]
    | cons c cs => simp

namespace DeclaringType

lemma isClassLike_iff {s : String} : isClassLike s = true ↔ StartsUpper s := by
  unfold isClassLike StartsUpper
  cases s.toList with
  | nil => simp
  | cons c cs =>
    have hupper : c.isUpper = true ↔ 'A' ≤ c ∧ c ≤ 'Z' := decide_eq_true_iff
    simp [hupper]

/-- Whether the package ends where the class begins: no segment of it starts like a class, and the
name does, unless it has one segment only. -/
structure IsCanonical (d : DeclaringType) : Prop where
  package : ∀ s ∈ Text.segments d.package, ¬StartsUpper s
  name : StartsUpper d.name ∨ (Text.segments d.name).length = 1

/-- Whether all segments are names, also those of the package, if there is one. -/
def IsMadeOfNames (d : DeclaringType) : Prop :=
  (d.package = "" ∨ ∀ s ∈ Text.segments d.package, IsName s) ∧
    ∀ s ∈ Text.segments d.name, IsName s

instance (d : DeclaringType) : Decidable d.IsMadeOfNames := inferInstanceAs (Decidable (_ ∧ _))

variable {d : DeclaringType} {s : String} {names : List String}

/-! ### Splitting segments -/

lemma isCanonical_ofSegments (hne : names ≠ []) (h : ∀ s ∈ names, '.' ∉ s.toList) :
    (ofSegments names).IsCanonical := by
  obtain ⟨packages, classes, rfl, hp, hc⟩ := exists_split hne
  rw [List.forall_mem_append] at h
  rw [ofSegments_append hp hc]
  constructor
  · intro s hs
    by_cases hnil : packages = []
    · have hempty : s = "" := by simpa [hnil, Text.dotted, Text.segments] using hs
      rw [hempty]
      simp [StartsUpper]
    · rw [Text.segments_dotted hnil h.1] at hs
      rw [← isClassLike_iff, hp s hs]
      exact Bool.false_ne_true
  · cases classes with
    | nil => simp at hc
    | cons c classes =>
      rw [startsUpper_dotted, Text.segments_dotted (List.cons_ne_nil c classes) h.2,
        ← isClassLike_iff]
      simpa [or_comm] using hc

/-- Canonical types are split where their segments are. -/
lemma IsCanonical.ofSegments_segments (h : d.IsCanonical) (hd : d.IsProper) :
    ofSegments d.segments = d := by
  have hname : d.name = Text.dotted d.classes := (Text.dotted_segments d.name).symm
  have hp : ∀ s ∈ d.packages, isClassLike s = false := by
    intro s hs
    rw [← Bool.not_eq_true, isClassLike_iff]
    exact h.package s (List.mem_filter.1 hs).1
  have hc : d.classes.length = 1 ∨ ∃ s ∈ d.classes.head?, isClassLike s = true := by
    refine h.name.symm.imp_right fun hupper => ?_
    rw [hname] at hupper
    cases hclasses : d.classes with
    | nil => exact absurd hclasses d.classes_ne_nil
    | cons c classes =>
      rw [hclasses, startsUpper_dotted, ← isClassLike_iff] at hupper
      exact ⟨c, rfl, hupper⟩
  rw [segments_eq, ofSegments_append hp hc, ← hd.package, ← hname]

/-! ### Reading and writing names -/

lemma segments_qualified (h : d.package ≠ "") :
    Text.segments d.qualified = Text.segments d.package ++ Text.segments d.name := by
  have hjoined : d.qualified =
      Text.dotted (Text.segments d.package ++ Text.segments d.name) := by
    rw [qualified, if_neg h, Text.dotted, String.intercalate_append_of_ne_nil
      (Text.segments_ne_nil _) (Text.segments_ne_nil _)]
    exact (congrArg₂ (fun p n => p ++ "." ++ n) (Text.dotted_segments _)
      (Text.dotted_segments _)).symm
  rw [hjoined]
  refine Text.segments_dotted (List.append_ne_nil_of_left_ne_nil (Text.segments_ne_nil _) _) ?_
  rw [List.forall_mem_append]
  exact ⟨fun _ => Text.dot_not_mem_of_mem_segments, fun _ => Text.dot_not_mem_of_mem_segments⟩

/-- A type is made of names when its qualified name is. -/
lemma isMadeOfNames_iff : d.IsMadeOfNames ↔ ∀ n ∈ Text.segments d.qualified, IsName n := by
  unfold IsMadeOfNames
  by_cases h : d.package = ""
  · rw [qualified, if_pos h]
    exact and_iff_right (.inl h)
  · rw [segments_qualified h, List.forall_mem_append, or_iff_right h]

namespace IsMadeOfNames

lemma isProper (h : d.IsMadeOfNames) : d.IsProper := by
  have hgapless : d.IsGapless := h.1.imp_right fun hp hempty => (hp "" hempty).ne_empty rfl
  refine ⟨hgapless.package_eq, fun s hs => ?_⟩
  rw [segments_eq] at hs
  rcases List.mem_append.1 hs with hs | hs
  · obtain ⟨hs, hne⟩ := List.mem_filter.1 hs
    rcases h.1 with hpackage | hp
    · have hempty : s = "" := by simpa [hpackage, Text.segments] using hs
      exact absurd hempty (of_decide_eq_true hne)
    · exact hp s hs
  · exact h.2 s hs

lemma segments_qualified_eq (h : d.IsMadeOfNames) : Text.segments d.qualified = d.segments := by
  rw [qualified_eq h.isProper, Text.segments_dotted d.segments_ne_nil d.dot_not_mem_segments]

lemma read_qualified (h : d.IsMadeOfNames) : read d.qualified = .ok (ofSegments d.segments) := by
  rw [read_ok_iff, h.segments_qualified_eq]
  exact ⟨h.isProper.names, rfl⟩

end IsMadeOfNames

lemma canonical_of_read (h : read s = .ok d) : d.qualified = s ∧ d.IsCanonical := by
  obtain ⟨hnames, rfl⟩ := read_ok_iff.1 h
  have hne := Text.segments_ne_nil s
  obtain ⟨hproper, hsegments⟩ := isProper_ofSegments hne hnames
  refine ⟨?_, isCanonical_ofSegments hne fun _ => Text.dot_not_mem_of_mem_segments⟩
  rw [qualified_eq hproper, hsegments, Text.dotted_segments]

end DeclaringType

/-! ### In a manifest -/

lemma Json.escape_of_plain {c : Char} (h : c ≠ '\x22' ∧ c ≠ '\\' ∧ 32 ≤ c.toNat) :
    escape c = [c] := by
  obtain ⟨hquote, hback, hcontrol⟩ := h
  have hne : ∀ control : Char, control.toNat < 32 → c ≠ control := by
    rintro control hlt rfl
    omega
  unfold escape
  rw [if_neg (not_or.2 ⟨hquote, hback⟩), if_neg (hne _ (by decide)), if_neg (hne _ (by decide)),
    if_neg (hne _ (by decide)), if_neg (hne _ (by decide)), if_neg (hne _ (by decide)),
    if_neg (Nat.not_lt.2 hcontrol)]

/-- Plain texts are quoted as they stand. -/
lemma Json.toList_quote {text : String} (h : IsUnescaped text.toList) :
    (quote text).toList = quoted text [] := by
  have hescape : text.toList.flatMap escape = text.toList := by
    rw [List.flatMap_congr fun c hc => escape_of_plain (h c hc), List.flatMap_singleton']
  rw [quote, hescape, String.toList_append, String.toList_append, String.toList_ofList]
  simp [quoted]

namespace DeclaringType

variable {d : DeclaringType}

lemma IsMadeOfNames.readText_quote (h : d.IsMadeOfNames) :
    Json.readText Manifest.readDeclaring (Json.quote d.qualified) =
      .ok (ofSegments d.segments) := by
  have hplain : Json.IsUnescaped d.qualified.toList := by
    rw [qualified_eq h.isProper]
    exact Json.isUnescaped_dotted h.isProper.names
  refine Json.readText_eq_ok ?_
  rw [Json.toList_quote hplain]
  exact Manifest.takes_readDeclaring h.read_qualified hplain []

/-- **A qualified name is read in its one canonical split.** Texts are read when all their segments
are names, and stand for the type that is read. Of the types that are made of names, those in the
canonical split come back as they are, and the others as the same type in that split: all that are
the same type give one and the same value, from the bare text and from its quoted form. -/
theorem read_canonical :
    (∀ s, (∃ d, read s = .ok d) ↔ ∀ n ∈ Text.segments s, IsName n) ∧
    (∀ s d, read s = .ok d → d.qualified = s ∧ (Subject.type d).render = s ∧ d.IsCanonical) ∧
    (∀ d : DeclaringType, (∃ e, read d.qualified = .ok e) ↔ d.IsMadeOfNames) ∧
    (∀ d : DeclaringType, d.IsMadeOfNames → (read d.qualified = .ok d ↔ d.IsCanonical)) ∧
    ∀ d : DeclaringType, d.IsMadeOfNames → ∃ e, e.same d = true ∧ e.IsCanonical ∧
      ∀ t : DeclaringType, t.IsMadeOfNames → t.same d = true → read t.qualified = .ok e ∧
        Json.readText Manifest.readDeclaring (Json.quote t.qualified) = .ok e := by
  have hread : ∀ s, (∃ d, read s = .ok d) ↔ ∀ n ∈ Text.segments s, IsName n := by
    intro s
    exact ⟨fun ⟨d, h⟩ => (read_ok_iff.1 h).1, fun h => ⟨_, read_ok_iff.2 ⟨h, rfl⟩⟩⟩
  refine ⟨hread, fun s d h => ?_, fun d => ?_, fun d hd => ⟨fun h => ?_, fun h => ?_⟩,
    fun d hd => ?_⟩
  · obtain ⟨hqualified, hcanonical⟩ := canonical_of_read h
    exact ⟨hqualified, hqualified, hcanonical⟩
  · rw [hread, isMadeOfNames_iff]
  · exact (canonical_of_read h).2
  · rw [hd.read_qualified, h.ofSegments_segments hd.isProper]
  · have hsegments : (ofSegments d.segments).segments = d.segments :=
      (isProper_ofSegments d.segments_ne_nil hd.isProper.names).2
    refine ⟨ofSegments d.segments, same_iff.2 hsegments,
      (canonical_of_read hd.read_qualified).2, fun t ht hsame => ?_⟩
    rw [← same_iff.1 hsame]
    exact ⟨ht.read_qualified, ht.readText_quote⟩

/-- Wherever the package of a nested class ends, it is read with a package that ends before the
first capital. With an empty segment in its package it is not read. -/
theorem read_canonical_nested :
    let nested : DeclaringType := ⟨"a", "B.C"⟩
    let packaged : DeclaringType := ⟨"a.B", "C"⟩
    let unpackaged : DeclaringType := ⟨"", "a.B.C"⟩
    let gapped : DeclaringType := ⟨"a..B", "C"⟩
    (nested.IsMadeOfNames ∧ packaged.IsMadeOfNames ∧ unpackaged.IsMadeOfNames) ∧
      nested.IsCanonical ∧ ¬packaged.IsCanonical ∧
      read packaged.qualified = .ok nested ∧ read unpackaged.qualified = .ok nested ∧
      Json.readText Manifest.readDeclaring "\"a.B.C\"" = .ok nested ∧
      ¬gapped.IsMadeOfNames ∧ ¬∃ e, read gapped.qualified = .ok e := by
  intro nested packaged unpackaged gapped
  obtain ⟨-, -, hreads, hcanonical, hsame⟩ := read_canonical
  have hn : nested.IsMadeOfNames := by decide +kernel
  have hp : packaged.IsMadeOfNames := by decide +kernel
  have hu : unpackaged.IsMadeOfNames := by decide +kernel
  have hread : read nested.qualified = .ok nested := by decide +kernel
  have hother : read packaged.qualified ≠ .ok packaged := by decide +kernel
  have hquote : Json.quote nested.qualified = "\"a.B.C\"" := by decide +kernel
  have hgap : ¬gapped.IsMadeOfNames := by decide +kernel
  obtain ⟨e, -, -, hall⟩ := hsame nested hn
  obtain ⟨hbare, hquoted⟩ := hall nested hn (same_refl nested)
  have he : e = nested := Except.ok.inj (hbare.symm.trans hread)
  rw [he, hquote] at hquoted
  rw [he] at hall
  exact ⟨⟨hn, hp, hu⟩, (hcanonical nested hn).1 hread,
    fun h => hother ((hcanonical packaged hp).2 h), (hall packaged hp (by decide +kernel)).1,
    (hall unpackaged hu (by decide +kernel)).1, hquoted, hgap,
    fun h => hgap ((hreads gapped).1 h)⟩

end DeclaringType

end SavedState
