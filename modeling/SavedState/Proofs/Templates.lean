import Mathlib.Data.List.Basic
import Mathlib.Tactic.Common
import SavedState.Text.Segments
import SavedState.Text.Utf8

/-!
Texts that are known but for a few holes.

A template is a row of fixed words with a hole before each of them but the first. What stands in
the holes of a text is found without trying: a hole ends at the first character of the next word,
so whatever does not hold that character is read back from where it was filled in.
-/

namespace SavedState.Text

/-! ### Lines -/

/-- The lines of a text; a text that ends with a line end has an empty last one. -/
def lines (s : String) : List String := (parts '\n' s.toList).map String.ofList

/-- A text that does not go over to another line. -/
def IsLine (s : String) : Prop := '\n' ∉ s.toList

instance (s : String) : Decidable (IsLine s) := inferInstanceAs (Decidable (¬_))

lemma IsLine.append {s t : String} (hs : IsLine s) (ht : IsLine t) : IsLine (s ++ t) := by
  unfold IsLine
  rw [String.toList_append, List.mem_append]
  exact not_or.2 ⟨hs, ht⟩

lemma IsLine.between {s t u : String} (ht : IsLine t) (hs : IsLine s) (hu : IsLine u) :
    IsLine (s ++ t ++ u) := (hs.append ht).append hu

lemma lines_join {l : List String} (h : ∀ s ∈ l, IsLine s) :
    lines (String.join (l.map (· ++ "\n"))) = l ++ [""] := by
  induction l with
  | nil => rfl
  | cons s l ih =>
    rw [List.forall_mem_cons] at h
    have hjoin : (String.join ((s :: l).map (· ++ "\n"))).toList =
        s.toList ++ '\n' :: (String.join (l.map (· ++ "\n"))).toList := by
      rw [List.map_cons, String.join_cons, String.toList_append, String.toList_append,
        List.append_assoc]
      rfl
    unfold lines at ih ⊢
    rw [hjoin, parts_append_sep h.1, List.map_cons, ih h.2, String.ofList_toList]
    rfl

lemma ofBytes?_bytes (s : String) : ofBytes? (bytes s) = some s := by
  have hb : (⟨(bytes s).toArray⟩ : ByteArray) = s.toByteArray := by
    rw [← String.utf8Encode_toList]
    exact ByteArray.ext List.data_toByteArray.symm
  unfold ofBytes?
  rw [hb, String.fromUTF8?, dif_pos s.isValidUTF8]
  rfl

/-! ### Holes -/

/-- Fixed words, each of them but the first one after a hole. -/
structure Template where
  start : String
  words : List String

namespace Template

/-- A hole goes as far as the first character of the word after it does not occur. -/
def readHoles : List String → List Char → Option (List String)
  | [], s => if s = [] then some [] else none
  | w :: ws, s => do
    let inside := fun c => w.toList.head? ≠ some c
    let rest ← w.toList.isPrefixOf? (s.dropWhile inside)
    return String.ofList (s.takeWhile inside) :: (← readHoles ws rest)

/-- What stands in the holes of a text that has the words of the template. -/
def read? (t : Template) (s : String) : Option (List String) := do
  readHoles t.words (← t.start.toList.isPrefixOf? s.toList)

def fillHoles : List String → List String → String
  | hole :: holes, w :: ws => hole ++ w ++ fillHoles holes ws
  | _, _ => ""

/-- The text of a template with its holes filled. -/
def fill (t : Template) (holes : List String) : String := t.start ++ fillHoles holes t.words

/-- A hole that ends where the word after it begins. -/
def Ends (w hole : String) : Prop := ∃ c, w.toList.head? = some c ∧ c ∉ hole.toList

lemma readHoles_append {w hole : String} (h : Ends w hole) (ws : List String) {rest : List Char}
    (hr : rest.head? = w.toList.head?) :
    readHoles (w :: ws) (hole.toList ++ rest) =
      (w.toList.isPrefixOf? rest).bind fun r => (readHoles ws r).map (hole :: ·) := by
  obtain ⟨c, hc, hm⟩ := h
  have hinside : ∀ x ∈ hole.toList, decide (w.toList.head? ≠ some x) = true := by
    intro x hx
    rw [hc, decide_eq_true_iff, ne_eq, Option.some.injEq]
    rintro rfl
    exact hm hx
  have hend : rest.takeWhile (fun x => decide (w.toList.head? ≠ some x)) = [] ∧
      rest.dropWhile (fun x => decide (w.toList.head? ≠ some x)) = rest := by
    cases rest with
    | nil => exact ⟨rfl, rfl⟩
    | cons x rest =>
      have hx : ¬decide (w.toList.head? ≠ some x) = true := by
        rw [decide_eq_true_iff, not_not]
        exact hr.symm
      exact ⟨List.takeWhile_cons_of_neg hx, List.dropWhile_cons_of_neg hx⟩
  rw [readHoles]
  dsimp only
  rw [List.takeWhile_append_of_pos hinside, List.dropWhile_append_of_pos hinside, hend.1, hend.2,
    List.append_nil, String.ofList_toList]
  cases w.toList.isPrefixOf? rest with
  | none => rfl
  | some r => cases hws : readHoles ws r <;> simp [hws]

lemma readHoles_fillHoles {ws holes : List String} (h : List.Forall₂ Ends ws holes) :
    readHoles ws (fillHoles holes ws).toList = some holes := by
  induction h with
  | nil => rfl
  | @cons w hole ws holes hends _ ih =>
    have hfill : (fillHoles (hole :: holes) (w :: ws)).toList =
        hole.toList ++ (w.toList ++ (fillHoles holes ws).toList) := by
      rw [fillHoles, String.toList_append, String.toList_append, List.append_assoc]
    have hhead : (w.toList ++ (fillHoles holes ws).toList).head? = w.toList.head? := by
      obtain ⟨c, hc, -⟩ := hends
      rw [List.head?_append, hc]
      rfl
    rw [hfill, readHoles_append hends ws hhead, List.isPrefixOf?_eq_some_iff_append_eq.2 rfl,
      Option.bind_some, ih, Option.map_some]

/-- What is filled in is read back. -/
lemma read?_fill {t : Template} {holes : List String} (h : List.Forall₂ Ends t.words holes) :
    t.read? (t.fill holes) = some holes := by
  unfold read? fill
  rw [String.toList_append, List.isPrefixOf?_eq_some_iff_append_eq.2 rfl]
  exact readHoles_fillHoles h

lemma isLine_fillHoles {holes ws : List String} (hholes : ∀ h ∈ holes, IsLine h)
    (hws : ∀ w ∈ ws, IsLine w) : IsLine (fillHoles holes ws) := by
  induction holes generalizing ws with
  | nil => exact List.not_mem_nil
  | cons hole holes ih =>
    cases ws with
    | nil => exact List.not_mem_nil
    | cons w ws =>
      rw [List.forall_mem_cons] at hholes hws
      exact (hholes.1.append hws.1).append (ih hholes.2 hws.2)

lemma isLine_fill {t : Template} {holes : List String} (hstart : IsLine t.start)
    (hwords : ∀ w ∈ t.words, IsLine w) (hholes : ∀ h ∈ holes, IsLine h) :
    IsLine (t.fill holes) := hstart.append (isLine_fillHoles hholes hwords)

end Template

end SavedState.Text
