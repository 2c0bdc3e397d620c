import SavedState.Proofs.TypeReading

/-!
The text that a type is shown as, taken back by the reader.

A type is shown in the spelling of one tree of the grammar, with a blank after each comma. The
reader gives it back, but for the supertypes, of which no text tells.
-/

namespace SavedState.FieldType

mutual

/-- The type as far as its text goes, with no known supertypes. -/
def bare : FieldType → FieldType
  | ⟨name, arguments, dimensions, _⟩ => ⟨name, bareAll arguments, dimensions, .empty⟩

def bareAll : List FieldType → List FieldType
  | [] => []
  | a :: as => bare a :: bareAll as

end

mutual

/-- The names in a type, from the outside to the inside. -/
def mentions : FieldType → List String
  | ⟨name, arguments, _, _⟩ => name :: mentionsAll arguments

def mentionsAll : List FieldType → List String
  | [] => []
  | a :: as => mentions a ++ mentionsAll as

end

mutual

/-- The tree whose spelling a type is shown in. -/
def written : FieldType → Written
  | ⟨name, arguments, dimensions, _⟩ => .type name.toList (writtenAll arguments) dimensions

def writtenAll : List FieldType → List WrittenArgument
  | [] => []
  | a :: as => .type (written a) :: writtenAll as

end

mutual

lemma erased_written : ∀ t : FieldType, t.written.erased = t.bare
  | ⟨name, arguments, dimensions, _⟩ => by
    rw [written, Written.erased, bare, erasedAll_writtenAll arguments, String.ofList_toList]

lemma erasedAll_writtenAll : ∀ l : List FieldType, erasedAll (writtenAll l) = bareAll l
  | [] => rfl
  | a :: as => by
    rw [writtenAll, erasedAll, WrittenArgument.erased, erased_written a, erasedAll_writtenAll as,
      bareAll]

end

mutual

lemma bare_erased : ∀ e : Written, e.erased.bare = e.erased
  | .type name arguments dimensions => by
    rw [Written.erased, bare, bareAll_erasedAll arguments]

lemma bareAll_erasedAll : ∀ l : List WrittenArgument, bareAll (erasedAll l) = erasedAll l
  | [] => rfl
  | a :: as => by rw [erasedAll, bareAll, bare_erasedArgument a, bareAll_erasedAll as]

lemma bare_erasedArgument : ∀ a : WrittenArgument, a.erased.bare = a.erased
  | .type t => bare_erased t
  | .wildcard => rfl
  | .upper bound => bare_erased bound
  | .lower _ => rfl

end

lemma closes_nil : Closes [] := by
  rintro t ⟨⟩

lemma read_of_spells {s : String} {e : Written} (h : Spells e.tokens s.toList) :
    read s = .ok e.erased := by
  rw [← List.append_nil e.tokens] at h
  obtain ⟨⟨r, hr⟩, ht, hnil⟩ := readType_of_spells e [] _ h closes_nil
  cases spells_nil_iff.1 hnil
  unfold read
  rw [ht]

/-- What has been read knows of no supertypes. -/
lemma bare_of_read {s : String} {t : FieldType} (h : read s = .ok t) : t.bare = t := by
  unfold read at h
  split at h
  · rename_i t hr ht
    cases h
    obtain ⟨e, rfl, -⟩ := spells_of_readType _ _ _ ht
    exact bare_erased e
  · cases h
  · cases h

/-! ### Spellings -/

lemma spells_brackets (n : Nat) {ts : List Token} {s : List Char} (h : Spells ts s) :
    Spells (dimensionTokens n ++ ts) ((brackets n).toList ++ s) := by
  induction n with
  | zero => exact h
  | succ n ih =>
    have hopen : (brackets (n + 1)).toList ++ s = '[' :: ([] ++ (']' :: ([] ++
        ((brackets n).toList ++ s)))) := by
      simp [brackets, List.replicate_succ, String.join_cons]
    rw [hopen]
    exact .mark (by decide) (List.forall_mem_nil _)
      (.mark (by decide) (List.forall_mem_nil _) ih)

lemma not_name_of_closes {ts : List Token} (h : Closes ts) (other : List Char) :
    ts.head? ≠ some (.name other) := by
  intro hname
  rcases h _ hname with h | h <;> cases h

/-- What stands after the name of a type does not begin with a name. -/
lemma not_name_after {n : Nat} {ts : List Token} (hts : Closes ts) (l : List WrittenArgument)
    (other : List Char) :
    (argumentTokens l ++ (dimensionTokens n ++ ts)).head? ≠ some (.name other) := by
  cases l with
  | cons a l =>
    rintro ⟨⟩
  | nil =>
    cases n with
    | zero => exact not_name_of_closes hts other
    | succ n =>
      rintro ⟨⟩

mutual

/-- A type is shown as one may write it. -/
theorem spells_render (t : FieldType) (ts : List Token) (s : List Char)
    (hn : ∀ n ∈ t.mentions, IsTypeName n.toList) (h : Spells ts s) (hts : Closes ts) :
    Spells (t.written.tokens ++ ts) (t.render.toList ++ s) := by
  match t with
  | ⟨name, arguments, dimensions, _⟩ =>
    rw [mentions, List.forall_mem_cons] at hn
    have hrest := spells_renderArguments arguments _ _ hn.2 (spells_brackets dimensions h)
    have htext : (render ⟨name, arguments, dimensions, ‹_›⟩).toList ++ s = name.toList ++ [] ++
        ((renderArguments arguments).toList ++ ((brackets dimensions).toList ++ s)) := by
      simp [render]
    rw [written, Written.tokens_append, htext]
    exact .name hn.1 (List.forall_mem_nil _) (fun _ => not_name_after hts _) hrest

theorem spells_renderArguments (l : List FieldType) (ts : List Token) (s : List Char)
    (hn : ∀ n ∈ mentionsAll l, IsTypeName n.toList) (h : Spells ts s) :
    Spells (argumentTokens (writtenAll l) ++ ts) ((renderArguments l).toList ++ s) := by
  match l with
  | [] => exact h
  | a :: as =>
    rw [mentionsAll, List.forall_mem_append] at hn
    have hmore := spells_renderMore as ts s hn.2 h
    have ha := spells_render a _ _ hn.1 hmore (closes_moreTokens _ _)
    have htext : (renderArguments (a :: as)).toList ++ s = '<' :: ([] ++
        (a.render.toList ++ ((renderMore as).toList ++ '>' :: s))) := by
      simp [renderArguments]
    rw [writtenAll, argumentTokens_append, WrittenArgument.tokens, htext]
    exact .mark (by decide) (List.forall_mem_nil _) ha

theorem spells_renderMore (l : List FieldType) (ts : List Token) (s : List Char)
    (hn : ∀ n ∈ mentionsAll l, IsTypeName n.toList) (h : Spells ts s) :
    Spells (moreTokens (writtenAll l) ++ ts) ((renderMore l).toList ++ '>' :: s) := by
  match l with
  | [] => exact .mark (by decide) (List.forall_mem_nil _) h
  | a :: as =>
    rw [mentionsAll, List.forall_mem_append] at hn
    have hmore := spells_renderMore as ts s hn.2 h
    have ha := spells_render a _ _ hn.1 hmore (closes_moreTokens _ _)
    have htext : (renderMore (a :: as)).toList ++ '>' :: s = ',' :: ([' '] ++
        (a.render.toList ++ ((renderMore as).toList ++ '>' :: s))) := by
      simp [renderMore]
    rw [writtenAll, moreTokens_append, WrittenArgument.tokens, htext]
    exact .mark (by decide) (List.forall_mem_singleton.2 (by decide)) ha

end

/-- **What is shown of a type is read as the type**, as far as texts go. -/
theorem read_render {t : FieldType} (hn : ∀ n ∈ t.mentions, IsTypeName n.toList) :
    read t.render = .ok t.bare := by
  have h := spells_render t [] [] hn .nil closes_nil
  rw [List.append_nil, List.append_nil] at h
  rw [read_of_spells h, erased_written]

end SavedState.FieldType
