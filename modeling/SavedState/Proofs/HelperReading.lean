import Mathlib.Tactic.Common
import SavedState.Proofs.HelperPath
import SavedState.Proofs.HelperSource
import SavedState.Proofs.TypeGrammar
import SavedState.Proofs.Writing

/-!
Helpers say what they were written for.

What is written into the holes of a line is made of identifiers and dots, or is a type, and so
does not hold the character that ends its hole. The lines of a helper are therefore read back,
and the statements in them save and restore the fields of the set.
-/

namespace SavedState

/-! ### Characters -/

/-- A text of identifiers and dots. -/
def IsDotted (s : String) : Prop := ∀ c ∈ s.toList, FieldType.isNameChar c = true

instance (s : String) : Decidable (IsDotted s) := decidable_of_iff _ List.all_eq_true

namespace IsDotted

variable {s t : String}

lemma not_mem (h : IsDotted s) {c : Char} (hc : FieldType.isNameChar c = false) :
    c ∉ s.toList := by
  intro hm
  rw [h c hm] at hc
  exact Bool.false_ne_true hc.symm

lemma append (hs : IsDotted s) (ht : IsDotted t) : IsDotted (s ++ t) := by
  unfold IsDotted
  rw [String.toList_append, List.forall_mem_append]
  exact ⟨hs, ht⟩

lemma intercalate {sep : String} {l : List String} (hsep : IsDotted sep)
    (h : ∀ s ∈ l, IsDotted s) : IsDotted (sep.intercalate l) := by
  intro c hc
  by_contra hn
  exact Text.not_mem_intercalate (fun hm => hn (hsep c hm)) (fun s hs hm => hn (h s hs c hm)) hc

/-- A hole with such a text in it ends at the next word. -/
lemma ends (h : IsDotted s) {w : String} {c : Char} (hw : w.toList.head? = some c)
    (hc : FieldType.isNameChar c = false) : Text.Template.Ends w s := ⟨c, hw, h.not_mem hc⟩

lemma isLine (h : IsDotted s) : Text.IsLine s := h.not_mem (by decide)

lemma of_parts (h : ∀ c ∈ s.toList, isIdentifierPart c = true) : IsDotted s := by
  intro c hc
  rw [FieldType.isNameChar, h c hc, Bool.true_or]

lemma of_isName (h : IsName s) : IsDotted s :=
  of_parts (List.all_eq_true.1 (all_part_of_isIdentifier h))

lemma of_suffix (a : Accessor) : IsDotted a.suffix := by
  cases a <;> decide

lemma dot : IsDotted "." := by decide

lemma dollar : IsDotted "$" := by decide

end IsDotted

namespace DeclaringType.IsProper

variable {d : DeclaringType} (h : d.IsProper)
include h

lemma isDotted_package : IsDotted d.package := by
  rw [h.package]
  refine .intercalate .dot fun s hs => ?_
  exact .of_isName (h.names s (List.mem_append_left _ hs))

lemma isDotted_segments : ∀ s ∈ Text.segments d.name, IsDotted s := fun s hs =>
  .of_isName (h.names s (List.mem_append_right _ hs))

lemma isDotted_name : IsDotted d.name := by
  rw [← Text.dotted_segments d.name]
  exact .intercalate .dot h.isDotted_segments

lemma isDotted_className {suffix : String} (hs : IsDotted suffix) :
    IsDotted (HelperName.of d suffix).className :=
  (IsDotted.intercalate .dollar h.isDotted_segments).append hs

lemma isDotted_fieldKey {name : String} (hn : IsName name) : IsDotted (d.fieldKey name) := by
  have hqualified : IsDotted d.qualified := by
    unfold qualified
    split
    · exact h.isDotted_name
    · exact (h.isDotted_package.append .dot).append h.isDotted_name
  exact (hqualified.append .dot).append (.of_isName hn)

end DeclaringType.IsProper

namespace FieldType

variable {c : Char}

lemma not_mem_mark (hm : c ∉ "<>, []".toList) {mark : String}
    (h : mark.toList ⊆ "<>, []".toList) : c ∉ mark.toList := fun hc => hm (h hc)

lemma not_mem_brackets (hm : c ∉ "<>, []".toList) (n : Nat) : c ∉ (brackets n).toList := by
  unfold brackets
  induction n with
  | zero => exact List.not_mem_nil
  | succ n ih =>
    rw [List.replicate_succ, String.join_cons, String.toList_append, List.mem_append]
    exact not_or.2 ⟨not_mem_mark hm (by decide), ih⟩

mutual

/-- What is shown of a type consists of its names and of marks. -/
theorem not_mem_render (hc : isNameChar c = false) (hm : c ∉ "<>, []".toList) (t : FieldType)
    (depth : Nat) (h : ∀ n ∈ t.nodes depth, isName n.2.name.toList = true) :
    c ∉ t.render.toList := by
  match t with
  | ⟨name, arguments, dimensions, supertypes⟩ =>
    rw [nodes, List.forall_mem_cons] at h
    have hname : c ∉ name.toList := by
      intro hin
      rw [(isName_iff.1 h.1).isNameChar c hin] at hc
      exact Bool.false_ne_true hc.symm
    rw [render, String.toList_append, String.toList_append, List.mem_append, List.mem_append]
    exact not_or.2 ⟨not_or.2 ⟨hname, not_mem_renderArguments hc hm arguments _ h.2⟩,
      not_mem_brackets hm dimensions⟩

theorem not_mem_renderArguments (hc : isNameChar c = false) (hm : c ∉ "<>, []".toList)
    (arguments : List FieldType) (depth : Nat)
    (h : ∀ n ∈ nodesAll depth arguments, isName n.2.name.toList = true) :
    c ∉ (renderArguments arguments).toList := by
  match arguments with
  | [] => exact List.not_mem_nil
  | a :: as =>
    rw [nodesAll, List.forall_mem_append] at h
    have ha := not_mem_render hc hm a depth h.1
    have has := not_mem_renderMore hc hm as depth h.2
    simp only [renderArguments, String.toList_append, List.mem_append, not_or]
    exact ⟨⟨⟨not_mem_mark hm (by decide), ha⟩, has⟩, not_mem_mark hm (by decide)⟩

theorem not_mem_renderMore (hc : isNameChar c = false) (hm : c ∉ "<>, []".toList)
    (arguments : List FieldType) (depth : Nat)
    (h : ∀ n ∈ nodesAll depth arguments, isName n.2.name.toList = true) :
    c ∉ (renderMore arguments).toList := by
  match arguments with
  | [] => exact List.not_mem_nil
  | a :: as =>
    rw [nodesAll, List.forall_mem_append] at h
    have ha := not_mem_render hc hm a depth h.1
    have has := not_mem_renderMore hc hm as depth h.2
    simp only [renderMore, String.toList_append, List.mem_append, not_or]
    exact ⟨⟨not_mem_mark hm (by decide), ha⟩, has⟩

end

end FieldType

/-! ### What there is to say -/

/-- A record that was built for `owner`. -/
structure FieldRecord.IsProper (owner : DeclaringType) (r : FieldRecord) : Prop where
  built : r = .of owner r.name r.type r.accessor
  name : IsName r.name
  type : ∀ n ∈ r.type.nodes 0, FieldType.isName n.2.name.toList = true

namespace HelperText

/-- The statement that saves a field. -/
def Save.of (r : FieldRecord) : Save := ⟨r.accessor, r.key, r.name⟩

/-- The statement that restores a field, with a cast to its type where one is needed. -/
def Restore.of (r : FieldRecord) : Restore :=
  ⟨r.name, if r.accessor.castsFor r.type then some r.type.render else none, r.accessor, r.key⟩

/-- What the helper of `d` for some fields says. -/
def Content.of (d : DeclaringType) (helper : HelperName) (fields : FieldSet) : Content :=
  ⟨d.package, helper.className, d.name, fields.toList.map Save.of, fields.toList.map Restore.of⟩

open Text.Template LineReader

/-! ### Statements -/

section

variable {r : FieldRecord}

lemma saveLine_eq (r : FieldRecord) :
    saveLine r = saveTemplate.fill [r.accessor.suffix, r.key, r.name] := by
  refine String.toList_inj.1 ?_
  unfold saveLine saveTemplate fill Accessor.putMethod
  simp only [fillHoles, String.toList_append, List.append_assoc]
  rfl

lemma restoreLine_of_cast (hc : r.accessor.castsFor r.type = true) : restoreLine r =
    castTemplate.fill [r.name, r.type.render, r.accessor.suffix, r.key] := by
  refine String.toList_inj.1 ?_
  unfold restoreLine HelperText.cast castTemplate fill Accessor.getMethod
  rw [if_pos hc]
  simp only [fillHoles, String.toList_append, List.append_assoc]
  rfl

lemma restoreLine_of_not_cast (hc : ¬r.accessor.castsFor r.type = true) : restoreLine r =
    plainTemplate.fill [r.name, r.accessor.suffix, r.key] := by
  refine String.toList_inj.1 ?_
  unfold restoreLine HelperText.cast plainTemplate fill Accessor.getMethod
  rw [if_neg hc]
  simp only [fillHoles, String.toList_append, List.append_assoc]
  rfl

/-- A line without a cast is not taken for one with a cast. -/
lemma castTemplate_read?_plain {name : String} (hn : IsDotted name) (suffix key : String) :
    castTemplate.read? (plainTemplate.fill [name, suffix, key]) = none := by
  have hfill : (plainTemplate.fill [name, suffix, key]).toList =
      "    target.".toList ++ (name.toList ++ (" = savedInstanceState.get".toList ++
        (fillHoles [suffix, key] ["(\"", "\");"]).toList)) := by
    unfold plainTemplate fill
    simp only [fillHoles, String.toList_append, List.append_assoc]
  unfold Text.Template.read? castTemplate
  rw [hfill, List.isPrefixOf?_eq_some_iff_append_eq.2 rfl]
  exact readHoles_append (hn.ends rfl (by decide)) _ rfl

variable {d : DeclaringType} (hd : d.IsProper) (hr : r.IsProper d)
include hd hr

lemma isDotted_key : IsDotted r.key := by
  rw [hr.built]
  exact hd.isDotted_fieldKey hr.name

lemma isLine_saveLine : Text.IsLine (saveLine r) := by
  rw [saveLine_eq]
  refine isLine_fill (by decide) (by decide) ?_
  simp only [List.forall_mem_cons]
  exact ⟨(IsDotted.of_suffix _).isLine, (isDotted_key hd hr).isLine,
    (IsDotted.of_isName hr.name).isLine, List.forall_mem_nil _⟩

lemma isLine_restoreLine : Text.IsLine (restoreLine r) := by
  have hname := (IsDotted.of_isName hr.name).isLine
  have hsuffix := (IsDotted.of_suffix r.accessor).isLine
  have hkey := (isDotted_key hd hr).isLine
  by_cases hc : r.accessor.castsFor r.type = true
  · have hrender : Text.IsLine r.type.render :=
      FieldType.not_mem_render (by decide) (by decide) r.type 0 hr.type
    rw [restoreLine_of_cast hc]
    refine isLine_fill (by decide) (by decide) ?_
    simp only [List.forall_mem_cons]
    exact ⟨hname, hrender, hsuffix, hkey, List.forall_mem_nil _⟩
  · rw [restoreLine_of_not_cast hc]
    refine isLine_fill (by decide) (by decide) ?_
    simp only [List.forall_mem_cons]
    exact ⟨hname, hsuffix, hkey, List.forall_mem_nil _⟩

lemma readSave_saveLine : readSave (saveLine r) = some (.of r) := by
  have hends : List.Forall₂ Ends saveTemplate.words [r.accessor.suffix, r.key, r.name] :=
    .cons ((IsDotted.of_suffix _).ends rfl (by decide)) <|
      .cons ((isDotted_key hd hr).ends rfl (by decide)) <|
      .cons ((IsDotted.of_isName hr.name).ends rfl (by decide)) .nil
  unfold readSave
  rw [saveLine_eq, read?_fill hends]
  simp only [Accessor.ofSuffix?_suffix, Option.map_some, Save.of]

lemma readRestore_restoreLine : readRestore (restoreLine r) = some (.of r) := by
  have hname := IsDotted.of_isName hr.name
  have hsuffix : Ends "(\"" r.accessor.suffix := (IsDotted.of_suffix _).ends rfl (by decide)
  have hkey : Ends "\");" r.key := (isDotted_key hd hr).ends rfl (by decide)
  unfold readRestore Restore.of
  by_cases hc : r.accessor.castsFor r.type = true
  · have hrender : Ends ") savedInstanceState.get" r.type.render :=
      ⟨')', rfl, FieldType.not_mem_render (by decide) (by decide) r.type 0 hr.type⟩
    have hends : List.Forall₂ Ends castTemplate.words
        [r.name, r.type.render, r.accessor.suffix, r.key] :=
      .cons (hname.ends rfl (by decide)) <| .cons hrender <| .cons hsuffix <|
        .cons hkey .nil
    rw [restoreLine_of_cast hc, read?_fill hends, if_pos hc]
    simp only [Accessor.ofSuffix?_suffix, Option.map_some]
  · have hends : List.Forall₂ Ends plainTemplate.words [r.name, r.accessor.suffix, r.key] :=
      .cons (hname.ends rfl (by decide)) <| .cons hsuffix <| .cons hkey .nil
    rw [restoreLine_of_not_cast hc, castTemplate_read?_plain hname, read?_fill hends, if_neg hc]
    simp only [Accessor.ofSuffix?_suffix, Option.map_some]

end

/-! ### Lines -/

section

variable {d : DeclaringType} (hd : d.IsProper) {suffix : String} (hs : IsDotted suffix)
  {fields : FieldSet} (hfields : ∀ r ∈ fields.toList, r.IsProper d)
include hd

lemma reads_package :
    Reads readPackage ((if d.package = "" then [] else ["package " ++ d.package ++ ";"]) ++ [""])
      d.package := by
  unfold readPackage
  by_cases hp : d.package = ""
  · rw [if_pos hp, hp]
    exact (reads_next "").cons (reads_pure "")
  · have hends : Ends ";" d.package := hd.isDotted_package.ends rfl (by decide)
    have hfill : "package " ++ d.package ++ ";" =
        (⟨"package ", [";"]⟩ : Text.Template).fill [d.package] := by
      rw [String.append_assoc]
      exact congrArg (fun s => "package " ++ s) String.append_empty.symm
    have hne : "package " ++ d.package ++ ";" ≠ "" := by
      intro he
      have := congrArg String.toList he
      rw [String.toList_append] at this
      exact List.cons_ne_nil _ _ (List.append_eq_nil_iff.1 this).2
    rw [if_neg hp]
    refine (reads_next _).cons ?_
    rw [if_neg hne, hfill, read?_fill (.cons hends .nil)]
    exact (reads_expect "").cons (reads_pure d.package)

include hs

lemma reads_header : Reads readHeader (header d (.of d suffix))
    (d.package, (HelperName.of d suffix).className) := by
  have hends : Ends " \x7b" (HelperName.of d suffix).className :=
    (hd.isDotted_className hs).ends rfl (by decide)
  have hheader : header d (.of d suffix) = "// Generated code from Icicle. Do not modify!" ::
      (((if d.package = "" then [] else ["package " ++ d.package ++ ";"]) ++ [""]) ++
        ["import android.os.Bundle;", "",
          "public class " ++ ((HelperName.of d suffix).className ++ " \x7b"), ""]) := by
    unfold header
    rw [List.append_assoc, List.append_assoc, String.append_assoc]
    rfl
  rw [hheader]
  refine (reads_expect _).cons ((reads_package hd).bind ?_)
  refine (reads_expect _).cons ((reads_expect _).cons ((reads_hole hends).cons ?_))
  exact (reads_expect _).cons (reads_pure _)

omit hs
include hfields

lemma reads_saveMethod :
    Reads readSaveMethod (saveMethod d fields) (d.name, fields.toList.map Save.of) := by
  have hends : Ends " source, Bundle outState) \x7b" d.name :=
    hd.isDotted_name.ends rfl (by decide)
  have hmethod : saveMethod d fields =
      ("  public static void saveInstanceState(" ++ (d.name ++ " source, Bundle outState) \x7b")) ::
        (fields.toList.map saveLine ++ ["  \x7d"]) := by
    unfold saveMethod
    rw [String.append_assoc]
    rfl
  have hclose : readSave "  \x7d" = none := by decide
  rw [hmethod]
  refine (reads_hole hends).cons ?_
  rw [← List.append_nil (_ ++ _)]
  exact (reads_block (fun r hr => readSave_saveLine hd (hfields r hr)) hclose).bind (reads_pure _)

lemma reads_restoreMethod :
    Reads readRestoreMethod (restoreMethod d fields)
      (d.name, fields.toList.map Restore.of) := by
  have hends : Ends " target, Bundle savedInstanceState) \x7b" d.name :=
    hd.isDotted_name.ends rfl (by decide)
  have hmethod : restoreMethod d fields =
      ("  public static void restoreInstanceState(" ++
          (d.name ++ " target, Bundle savedInstanceState) \x7b")) ::
        "    if (savedInstanceState == null) \x7b" :: "      return;" :: "    \x7d" ::
        (fields.toList.map restoreLine ++ ["  \x7d"]) := by
    unfold restoreMethod
    rw [String.append_assoc]
    rfl
  have hclose : readRestore "  \x7d" = none := by decide
  rw [hmethod]
  refine (reads_hole hends).cons ?_
  refine (reads_expect _).cons ((reads_expect _).cons ((reads_expect _).cons ?_))
  rw [← List.append_nil (_ ++ _)]
  exact (reads_block (fun r hr => readRestore_restoreLine hd (hfields r hr)) hclose).bind
    (reads_pure _)

include hs

/-- **The lines of a helper are read as what they say.** -/
lemma reads_content :
    Reads readContent (lines d (.of d suffix) fields) (.of d (.of d suffix) fields) := by
  have hlines : lines d (.of d suffix) fields = header d (.of d suffix) ++
      (saveMethod d fields ++ ("" :: (restoreMethod d fields ++ ["\x7d"]))) := by
    unfold lines
    rw [List.append_assoc, List.append_assoc, List.append_assoc]
    rfl
  rw [hlines]
  refine (reads_header hd hs).bind ((reads_saveMethod hd hfields).bind ?_)
  refine (reads_expect "").cons ((reads_restoreMethod hd hfields).bind ?_)
  exact (reads_expect _).cons ((reads_guard rfl).bind (reads_pure _))

lemma isLine_lines : ∀ s ∈ lines d (.of d suffix) fields, Text.IsLine s := by
  have hclause : ∀ s ∈ if d.package = "" then [] else ["package " ++ d.package ++ ";"],
      Text.IsLine s := by
    split
    · exact List.forall_mem_nil _
    · exact List.forall_mem_singleton.2
        (hd.isDotted_package.isLine.between (by decide) (by decide))
  have hclass : Text.IsLine ("public class " ++ (HelperName.of d suffix).className ++ " \x7b") :=
    (hd.isDotted_className hs).isLine.between (by decide) (by decide)
  have hheader : ∀ s ∈ header d (.of d suffix), Text.IsLine s := by
    refine List.forall_mem_append.2 ⟨List.forall_mem_append.2 ⟨by decide, hclause⟩, ?_⟩
    simp only [List.forall_mem_cons, hclass]
    decide
  have hsave : ∀ s ∈ saveMethod d fields, Text.IsLine s := by
    refine List.forall_mem_append.2 ⟨List.forall_mem_append.2 ⟨?_, ?_⟩, by decide⟩
    · exact List.forall_mem_singleton.2
        (hd.isDotted_name.isLine.between (by decide) (by decide))
    · exact List.forall_mem_map.2 fun r hr => isLine_saveLine hd (hfields r hr)
  have hrestore : ∀ s ∈ restoreMethod d fields, Text.IsLine s := by
    refine List.forall_mem_append.2 ⟨List.forall_mem_append.2 ⟨?_, ?_⟩, by decide⟩
    · exact List.forall_mem_cons.2
        ⟨hd.isDotted_name.isLine.between (by decide) (by decide), by decide⟩
    · exact List.forall_mem_map.2 fun r hr => isLine_restoreLine hd (hfields r hr)
  unfold lines
  simp only [List.forall_mem_append]
  exact ⟨⟨⟨⟨hheader, hsave⟩, by decide⟩, hrestore⟩, by decide⟩

end

/-! ### Saving and restoring -/

section

variable {V : Type}

/-- Under keys of their own, the fields of the set are carried over, and only they. -/
lemma restore_save (d : DeclaringType) (helper : HelperName) {fields : FieldSet}
    (h : (fields.toList.map FieldRecord.key).Nodup) (missing : Accessor → V)
    (source target : String → V) :
    let content := Content.of d helper fields
    content.restore missing (content.save source) target =
      fun field => if field ∈ fields.toList.map FieldRecord.name then source field
        else target field := by
  intro content
  have hkeys : (content.saves.map Save.key).Nodup := by
    rwa [show content.saves.map Save.key = fields.toList.map FieldRecord.key from
      List.map_map]
  have hget : ∀ r ∈ content.restores,
      (content.save source).get missing r.accessor r.key = source r.field := by
    refine List.forall_mem_map.2 fun r hr => ?_
    have hsaved : content.save source r.key = some (r.accessor, source r.name) :=
      foldl_save source hkeys (List.mem_map_of_mem hr) _
    unfold Bundle.get
    rw [show (Restore.of r).key = r.key from rfl, hsaved]
    exact if_pos rfl
  refine (foldl_restore missing _ source hget target).trans ?_
  rw [show content.restores.map Restore.field = fields.toList.map FieldRecord.name from
    List.map_map]

end

/-- **The text of a helper says what it was written for**: where the helper belongs, and for each
field of the set, in order, how it is saved and how it is restored, under one key and with one
accessor pair. Where keys are not shared, the statements carry the fields over from one object to
another, and change nothing else. -/
theorem read?_whole_and_restore {input suffix : String} {d : DeclaringType}
    (hd : DeclaringType.read input = .ok d)
    (hs : ∀ c ∈ suffix.toList, isIdentifierPart c = true) (fields : FieldSet)
    (hfields : ∀ r ∈ fields.toList, r.IsProper d) :
    let helper := HelperName.of d suffix
    let content : Content := ⟨d.package, helper.className, d.name,
      fields.toList.map fun r => ⟨r.accessor, r.key, r.name⟩,
      fields.toList.map fun r =>
        ⟨r.name, if r.accessor.castsFor r.type then some r.type.render else none,
          r.accessor, r.key⟩⟩
    read? (emitter.whole d helper fields) = some content ∧
      ((fields.toList.map FieldRecord.key).Nodup →
        ∀ {V : Type} (missing : Accessor → V) (source target : String → V),
          content.restore missing (content.save source) target =
            fun field => if field ∈ fields.toList.map FieldRecord.name then source field
              else target field) := by
  intro helper content
  have hproper := DeclaringType.isProper_of_read hd
  have hdotted : IsDotted suffix := .of_parts hs
  refine ⟨?_, fun hkeys V => restore_save d helper hkeys⟩
  have hlines : Text.lines (text d helper fields) = lines d helper fields ++ [""] :=
    Text.lines_join (isLine_lines hproper hdotted hfields)
  unfold read?
  rw [whole_eq, Text.ofBytes?_bytes]
  dsimp only [bind, Option.bind]
  rw [hlines, reads_content hproper hdotted hfields [""]]
  rfl

/-- The helper of a nested class for a number and a list, where only the list has to be cast. -/
theorem read?_whole_and_restore_nested :
    let d : DeclaringType := ⟨"com.example", "Outer.Inner"⟩
    let count : FieldRecord := .of d "count" (.named "int") .int
    let tags : FieldRecord :=
      .of d "tags" ⟨"java.util.ArrayList", [.named "com.example.Tag"], 0, .empty⟩ .serializable
    let fields : FieldSet := .ofList [count, tags]
    let content : Content := ⟨"com.example", "Outer$Inner$$Icicle", "Outer.Inner",
      [⟨.int, "com.example.Outer.Inner.count", "count"⟩,
        ⟨.serializable, "com.example.Outer.Inner.tags", "tags"⟩],
      [⟨"count", none, .int, "com.example.Outer.Inner.count"⟩,
        ⟨"tags", some "java.util.ArrayList<com.example.Tag>", .serializable,
          "com.example.Outer.Inner.tags"⟩]⟩
    DeclaringType.read "com.example.Outer.Inner" = .ok d ∧
      (∀ c ∈ "$$Icicle".toList, isIdentifierPart c = true) ∧
      (∀ r ∈ fields.toList, r.IsProper d) ∧ (fields.toList.map FieldRecord.key).Nodup ∧
      read? (emitter.whole d (.of d "$$Icicle") fields) = some content ∧
      ∀ source target : String → Nat,
        content.restore (fun _ => 0) (content.save source) target =
          fun field => if field ∈ ["count", "tags"] then source field else target field := by
  intro d count tags fields content
  have hd : DeclaringType.read "com.example.Outer.Inner" = .ok d := by decide +kernel
  have hs : ∀ c ∈ "$$Icicle".toList, isIdentifierPart c = true :=
    List.all_eq_true.1 (by decide)
  have hfields : ∀ r ∈ fields.toList, r.IsProper d := by
    have hlist : fields.toList = [count, tags] := by decide +kernel
    rw [hlist, List.forall_mem_cons, List.forall_mem_singleton]
    exact ⟨⟨rfl, by decide, by decide⟩, ⟨rfl, by decide, by decide⟩⟩
  have hkeys : (fields.toList.map FieldRecord.key).Nodup := by decide +kernel
  obtain ⟨hread, hrestore⟩ := read?_whole_and_restore hd hs fields hfields
  refine ⟨hd, hs, hfields, hkeys, hread.trans ?_, fun source target => ?_⟩
  · decide +kernel
  · exact hrestore hkeys (fun _ => 0) source target

end HelperText

end SavedState
