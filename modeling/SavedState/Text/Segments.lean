/-!
Texts made of parts with a separator between them. Cutting a text at every separator and joining
the parts again loses nothing, and parts without a separator survive being joined and cut.
-/

namespace SavedState.Text

/-- The parts of a text between the occurrences of `sep`, the first one apart from the others. -/
def cut (sep : Char) : List Char → List Char × List (List Char)
  | [] => ([], [])
  | c :: s =>
    let (p, ps) := cut sep s
    if c = sep then ([], p :: ps) else (c :: p, ps)

def parts (sep : Char) (s : List Char) : List (List Char) :=
  let (p, ps) := cut sep s
  p :: ps

theorem parts_ne_nil (sep : Char) (s : List Char) : parts sep s ≠ [] := by simp [parts]

@[simp] theorem parts_nil (sep : Char) : parts sep [] = [[]] := rfl

@[simp] theorem parts_sep (sep : Char) (s : List Char) :
    parts sep (sep :: s) = [] :: parts sep s := by
  simp [parts, cut]

theorem parts_cons {sep c : Char} (h : c ≠ sep) (s : List Char) :
    parts sep (c :: s) = (c :: (cut sep s).1) :: (cut sep s).2 := by
  simp [parts, cut, h]

theorem join_parts (sep : Char) (s : List Char) : [sep].intercalate (parts sep s) = s := by
  induction s with
  | nil => rfl
  | cons c s ih =>
    by_cases h : c = sep
    · subst h
      rw [parts_sep]
      conv => rhs; rw [← ih]
      cases hp : parts c s with
      | nil => exact absurd hp (parts_ne_nil c s)
      | cons p ps => simp [List.intercalate, List.intersperse]
    · rw [parts_cons h]
      conv => rhs; rw [← ih]
      simp only [parts]
      cases (cut sep s).2 <;> simp [List.intercalate, List.intersperse]

theorem parts_of_not_mem {sep : Char} {s : List Char} (h : sep ∉ s) : parts sep s = [s] := by
  induction s with
  | nil => rfl
  | cons c s ih =>
    simp only [List.mem_cons, not_or] at h
    have hs := ih h.2
    simp only [parts, List.cons.injEq] at hs
    rw [parts_cons (Ne.symm h.1), hs.1, hs.2]

theorem parts_append_sep {sep : Char} {p : List Char} (h : sep ∉ p) (s : List Char) :
    parts sep (p ++ sep :: s) = p :: parts sep s := by
  induction p with
  | nil => simp
  | cons c p ih =>
    simp only [List.mem_cons, not_or] at h
    have hp := ih h.2
    simp only [parts, List.cons.injEq] at hp
    rw [List.cons_append, parts_cons (Ne.symm h.1), hp.1, hp.2, parts]

theorem parts_join {sep : Char} {ps : List (List Char)} (hne : ps ≠ [])
    (h : ∀ p ∈ ps, sep ∉ p) : parts sep ([sep].intercalate ps) = ps := by
  induction ps with
  | nil => exact absurd rfl hne
  | cons p ps ih =>
    cases ps with
    | nil => simpa [List.intercalate, List.intersperse] using parts_of_not_mem (h p (by simp))
    | cons q qs =>
      have : [sep].intercalate (p :: q :: qs) = p ++ sep :: [sep].intercalate (q :: qs) := by
        simp [List.intercalate, List.intersperse]
      rw [this, parts_append_sep (h p (by simp)), ih (by simp) fun r hr => h r (by simp [hr])]

theorem not_mem_of_mem_parts {sep : Char} {s p : List Char} (h : p ∈ parts sep s) : sep ∉ p := by
  induction s generalizing p with
  | nil => simp_all
  | cons c s ih =>
    by_cases hc : c = sep
    · subst hc
      rw [parts_sep, List.mem_cons] at h
      rcases h with rfl | h
      · simp
      · exact ih h
    · rw [parts_cons hc, List.mem_cons] at h
      rcases h with rfl | h
      · have := ih (p := (cut sep s).1) (by simp [parts])
        simp [Ne.symm hc, this]
      · exact ih (by simp [parts, h])

/-- The parts of a text between its dots. -/
def segments (s : String) : List String := (parts '.' s.toList).map String.ofList

/-- Names with a dot between them. -/
def dotted (names : List String) : String := ".".intercalate names

theorem dotted_segments (s : String) : dotted (segments s) = s := by
  apply String.toList_inj.1
  have : String.toList ∘ String.ofList = id := by funext; simp
  simp [dotted, segments, String.toList_intercalate, this, join_parts]

theorem segments_ne_nil (s : String) : segments s ≠ [] := by simp [segments, parts_ne_nil]

theorem segments_dotted {names : List String} (hne : names ≠ [])
    (h : ∀ n ∈ names, '.' ∉ n.toList) : segments (dotted names) = names := by
  have : String.ofList ∘ String.toList = id := by funext; simp
  simp only [segments, dotted, String.toList_intercalate]
  have hp := @parts_join '.' (names.map String.toList) (by simpa) (by simpa using h)
  rw [show ".".toList = ['.'] from rfl, hp]
  simp [this]

end SavedState.Text
