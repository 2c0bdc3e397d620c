import SavedState.Proofs.TypeReading

/-!
The steps of the reader of a field's type, by how they end.

A step ends well or fails, and leaves the end of the text that it was to read. Where it does not
fail, another step goes on there.
-/

namespace SavedState.FieldType

variable {α β : Type} {p p' : List Char → Prop} {c : Char} {s : List Char}

/-! ### Steps -/

/-- How a step of the reader ends, and the text that it leaves. -/
abbrev Ending (α : Type) := Except TypeProblem α × List Char

def ending : Except Stop (α × { r : List Char // p r }) → Ending α
  | .ok (a, r) => (.ok a, r.1)
  | .error stop => (.error stop.problem, stop.rest)

/-- Goes on where another step has ended, unless it has failed. -/
def Ending.andThen (x : Ending α) (f : α → List Char → Ending β) : Ending β :=
  match x with
  | (.ok a, r) => f a r
  | (.error e, r) => (.error e, r)

lemma ending_eq_ok {x : Except Stop (α × { r : List Char // p r })} {a : α} {r : List Char}
    (h : ending x = (.ok a, r)) : ∃ hr, x = .ok (a, ⟨r, hr⟩) := by
  cases x with
  | error stop => cases h
  | ok y =>
    cases h
    exact ⟨y.2.2, rfl⟩

lemma ending_bind (x : Except Stop (α × { r : List Char // p r }))
    {f : α × { r : List Char // p r } → Except Stop (β × { r : List Char // p' r })}
    {g : α → List Char → Ending β} (h : ∀ a r, ending (f (a, r)) = g a r.1) :
    ending (x >>= f) = (ending x).andThen g := by
  cases x with
  | error stop => rfl
  | ok y => exact h y.1 y.2

lemma andThen_eq_ok {x : Ending α} {f : α → List Char → Ending β} {b : β} {r : List Char}
    (h : x.andThen f = (.ok b, r)) : ∃ a q, x = (.ok a, q) ∧ f a q = (.ok b, r) := by
  obtain ⟨e | a, q⟩ := x
  · cases h
  · exact ⟨a, q, rfl, h⟩

/-- Goes on with `yes` behind `c`, where that comes next after any blanks. -/
def ifNext (c : Char) (yes no : List Char → β) (s : List Char) : β :=
  match Text.skipBlanks s with
  | [] => no s
  | d :: r => if d = c then yes r else no s

lemma ifNext_of_next {yes no : List Char → β} {r : List Char} (h : Text.skipBlanks s = c :: r) :
    ifNext c yes no s = yes r := by
  unfold ifNext
  rw [h]
  exact if_pos rfl

lemma ifNext_of_not_next {yes no : List Char → β} (h : (Text.skipBlanks s).head? ≠ some c) :
    ifNext c yes no s = no s := by
  unfold ifNext
  split
  · rfl
  · rename_i d r hd
    rw [hd] at h
    exact if_neg fun hdc => h (congrArg some hdc)

lemma eat?_cases (c : Char) (s : List Char) :
    (∃ r hr, Text.skipBlanks s = c :: r ∧ eat? c s = some ⟨r, hr⟩) ∨
      (Text.skipBlanks s).head? ≠ some c ∧ eat? c s = none := by
  by_cases h : (Text.skipBlanks s).head? = some c
  · obtain ⟨r, hr⟩ := List.head?_eq_some_iff.1 h
    obtain ⟨hlt, heat⟩ := eat?_of_skipBlanks hr
    exact .inl ⟨r, hlt, hr, heat⟩
  · refine .inr ⟨h, ?_⟩
    cases heat : eat? c s with
    | none => rfl
    | some r =>
      rw [skipBlanks_of_eat? heat] at h
      exact absurd rfl h

/-! ### What each step goes on with -/

lemma ending_readName (s : List Char) : ending (readName s) =
    (if isName (s.takeWhile isNameChar) then .ok (String.ofList (s.takeWhile isNameChar))
      else .error .typeName, s.dropWhile isNameChar) := by
  unfold readName
  split <;> rfl

/-- What comes behind an opening bracket. -/
def closeDimension : List Char → Ending Nat :=
  ifNext ']' (fun r => (ending (readDimensions r)).andThen fun n q => (.ok (n + 1), q))
    fun r => (.error .closingBracket, Text.skipBlanks r)

lemma ending_readDimensions (s : List Char) : ending (readDimensions s) =
    ifNext '[' closeDimension (fun s => (.ok 0, Text.skipBlanks s)) s := by
  rw [readDimensions]
  rcases eat?_cases '[' s with ⟨r, hr, hs, h⟩ | ⟨hs, h⟩
  · rw [h, ifNext_of_next hs]
    dsimp only
    rcases eat?_cases ']' r with ⟨q, hq, hr, h⟩ | ⟨hr, h⟩
    · rw [h, closeDimension, ifNext_of_next hr]
      exact ending_bind _ fun n q => rfl
    · rw [h, closeDimension, ifNext_of_not_next hr]
      rfl
  · rw [h, ifNext_of_not_next hs]
    rfl

lemma ending_readArguments (s : List Char) : ending (readArguments s) =
    ifNext '<' (fun r => ending (readArgumentList r)) (fun s => (.ok [], s)) s := by
  rw [readArguments]
  rcases eat?_cases '<' s with ⟨r, hr, hs, h⟩ | ⟨hs, h⟩
  · rw [h, ifNext_of_next hs]
    refine (ending_bind (g := fun l q => (.ok l, q)) _ fun l q => rfl).trans ?_
    cases readArgumentList r <;> rfl
  · rw [h, ifNext_of_not_next hs]
    rfl

lemma ending_readType (s : List Char) : ending (readType s) =
    (ending (readName s)).andThen fun name r =>
      (ending (readArguments r)).andThen fun arguments q =>
        (ending (readDimensions q)).andThen fun n o =>
          (.ok ⟨name, arguments, n, .empty⟩, o) := by
  rw [readType]
  refine ending_bind _ fun name r => ending_bind _ fun arguments q => ending_bind _ fun n o => rfl

/-- What comes behind an argument. -/
def closeArgument (argument : FieldType) : List Char → Ending (List FieldType) :=
  ifNext ',' (fun q => (ending (readArgumentList q)).andThen fun l o => (.ok (argument :: l), o)) <|
    ifNext '>' (fun q => (.ok [argument], q)) fun r => (.error .separator, Text.skipBlanks r)

lemma ending_readArgumentList (s : List Char) : ending (readArgumentList s) =
    (ending (readArgument (Text.skipBlanks s))).andThen closeArgument := by
  rw [readArgumentList]
  refine ending_bind _ fun argument r => ?_
  obtain ⟨r, hr⟩ := r
  unfold closeArgument
  dsimp only
  rcases eat?_cases ',' r with ⟨q, hq, hs, h⟩ | ⟨hs, h⟩
  · rw [h, ifNext_of_next hs]
    exact ending_bind _ fun l o => rfl
  · rw [h, ifNext_of_not_next hs]
    dsimp only
    rcases eat?_cases '>' r with ⟨q, hq, hs, h⟩ | ⟨hs, h⟩
    · rw [h, ifNext_of_next hs]
      rfl
    · rw [h, ifNext_of_not_next hs]
      rfl

/-- What comes behind the question mark of a wildcard that has a bound. -/
def readBound (s : List Char) : Ending FieldType :=
  (ending (readName s)).andThen fun word q =>
    (ending (readType (Text.skipBlanks q))).andThen fun bound o =>
      (match erase word bound with
        | some t => .ok t
        | none => .error (.wildcard word), o)

/-- What comes behind the question mark of a wildcard. -/
def readWildcard (s : List Char) : Ending FieldType :=
  if startsBound s then readBound s else (.ok (named "java.lang.Object"), s)

lemma ending_readArgument (s : List Char) : ending (readArgument s) =
    ifNext '?' (fun r => readWildcard (Text.skipBlanks r)) (fun s => ending (readType s)) s := by
  rw [readArgument]
  rcases eat?_cases '?' s with ⟨r, hr, hs, h⟩ | ⟨hs, h⟩
  · rw [h, ifNext_of_next hs, readWildcard]
    dsimp only
    split
    · refine ending_bind _ fun word q => ending_bind _ fun bound o => ?_
      dsimp only
      cases erase word bound <;> rfl
    · rfl
  · rw [h, ifNext_of_not_next hs]

/-! ### What is left -/

lemma andThen_suffix {x : Ending α} {f : α → List Char → Ending β} (hx : x.2 <:+ s)
    (hf : ∀ a r, x = (.ok a, r) → (f a r).2 <:+ r) : (x.andThen f).2 <:+ s := by
  obtain ⟨a | e, r⟩ := x
  · exact hx
  · exact (hf _ _ rfl).trans hx

/-- Where nothing more is read, nothing more is taken. -/
lemma andThen_done_suffix {x : Ending α} {g : α → Except TypeProblem β} (hx : x.2 <:+ s) :
    (x.andThen fun a r => (g a, r)).2 <:+ s :=
  andThen_suffix hx fun _ r _ => List.suffix_refl r

lemma skipBlanks_suffix (s : List Char) : Text.skipBlanks s <:+ s := List.dropWhile_suffix _

lemma ifNext_suffix {yes no : List Char → Ending β}
    (hyes : ∀ r, Text.skipBlanks s = c :: r → (yes r).2 <:+ r) (hno : (no s).2 <:+ s) :
    (ifNext c yes no s).2 <:+ s := by
  by_cases h : (Text.skipBlanks s).head? = some c
  · obtain ⟨r, hr⟩ := List.head?_eq_some_iff.1 h
    rw [ifNext_of_next hr]
    have hcons : c :: r <:+ s := hr ▸ skipBlanks_suffix s
    exact (hyes r hr).trans ((List.suffix_cons c r).trans hcons)
  · rwa [ifNext_of_not_next h]

lemma length_lt_of_next {r : List Char} (h : Text.skipBlanks s = c :: r) :
    r.length < s.length := by
  have hle := (skipBlanks_suffix s).length_le
  rwa [h, List.length_cons, Nat.succ_le_iff] at hle

lemma readName_suffix (s : List Char) : (ending (readName s)).2 <:+ s := by
  rw [ending_readName]
  exact List.dropWhile_suffix _

lemma closeArgument_suffix (argument : FieldType)
    (h : ∀ r, Text.skipBlanks s = ',' :: r → (ending (readArgumentList r)).2 <:+ r) :
    (closeArgument argument s).2 <:+ s := by
  refine ifNext_suffix (fun r hr => andThen_done_suffix (h r hr)) ?_
  exact ifNext_suffix (fun r _ => List.suffix_refl r) (skipBlanks_suffix s)

lemma readBound_suffix (s : List Char) (h : ∀ word r, ending (readName s) = (.ok word, r) →
      (ending (readType (Text.skipBlanks r))).2 <:+ Text.skipBlanks r) :
    (readBound s).2 <:+ s.dropWhile isNameChar := by
  have hname : (ending (readName s)).2 = s.dropWhile isNameChar :=
    congrArg Prod.snd (ending_readName s)
  refine andThen_suffix (hname ▸ List.suffix_refl _) fun word r hr => ?_
  exact andThen_done_suffix ((h word r hr).trans (skipBlanks_suffix r))

theorem readDimensions_suffix (s : List Char) : (ending (readDimensions s)).2 <:+ s := by
  rw [ending_readDimensions]
  refine ifNext_suffix (fun r hr => ?_) (skipBlanks_suffix s)
  refine ifNext_suffix (fun q hq => ?_) (skipBlanks_suffix r)
  have := length_lt_of_next hr
  have := length_lt_of_next hq
  exact andThen_done_suffix (readDimensions_suffix q)
termination_by s.length

mutual

/-- What is left is the end of the text that was to be read. -/
theorem readType_suffix (s : List Char) : (ending (readType s)).2 <:+ s := by
  rw [ending_readType]
  refine andThen_suffix (readName_suffix s) fun name r hr => ?_
  obtain ⟨hlt, -⟩ := ending_eq_ok hr
  refine andThen_suffix (readArguments_suffix r) fun arguments q _ => ?_
  exact andThen_done_suffix (readDimensions_suffix q)
termination_by 3 * s.length + 0

theorem readArguments_suffix (s : List Char) : (ending (readArguments s)).2 <:+ s := by
  rw [ending_readArguments]
  refine ifNext_suffix (fun r hr => ?_) (List.suffix_refl s)
  have := length_lt_of_next hr
  exact readArgumentList_suffix r
termination_by 3 * s.length + 0

theorem readArgumentList_suffix (s : List Char) : (ending (readArgumentList s)).2 <:+ s := by
  rw [ending_readArgumentList]
  have hs := Text.skipBlanks_length_le s
  have hargument := (readArgument_suffix (Text.skipBlanks s)).trans (skipBlanks_suffix s)
  refine andThen_suffix hargument fun argument r hr => ?_
  obtain ⟨hlt, -⟩ := ending_eq_ok hr
  refine closeArgument_suffix argument fun q hq => ?_
  have := length_lt_of_next hq
  exact readArgumentList_suffix q
termination_by 3 * s.length + 2

theorem readArgument_suffix (s : List Char) : (ending (readArgument s)).2 <:+ s := by
  rw [ending_readArgument]
  refine ifNext_suffix (fun r hr => ?_) (readType_suffix s)
  have := length_lt_of_next hr
  have := Text.skipBlanks_length_le r
  unfold readWildcard
  split
  · have hrest := (List.dropWhile_suffix isNameChar).trans (skipBlanks_suffix r)
    refine (readBound_suffix _ fun word q hq => ?_).trans hrest
    obtain ⟨hlt, -⟩ := ending_eq_ok hq
    have := Text.skipBlanks_length_le q
    exact readType_suffix (Text.skipBlanks q)
  · exact skipBlanks_suffix r
termination_by 3 * s.length + 1

end

lemma skipBlanks_idem (s : List Char) :
    Text.skipBlanks (Text.skipBlanks s) = Text.skipBlanks s := by
  unfold Text.skipBlanks
  rw [List.dropWhile_idempotent]

/-- The blanks behind a type are taken with it. -/
theorem skipBlanks_of_readDimensions (s : List Char) {n : Nat} {r : List Char}
    (h : ending (readDimensions s) = (.ok n, r)) : Text.skipBlanks r = r := by
  rw [ending_readDimensions] at h
  by_cases hopen : (Text.skipBlanks s).head? = some '['
  · obtain ⟨q, hq⟩ := List.head?_eq_some_iff.1 hopen
    rw [ifNext_of_next hq, closeDimension] at h
    by_cases hclose : (Text.skipBlanks q).head? = some ']'
    · obtain ⟨o, ho⟩ := List.head?_eq_some_iff.1 hclose
      rw [ifNext_of_next ho] at h
      obtain ⟨m, l, hdims, h⟩ := andThen_eq_ok h
      cases h
      have := length_lt_of_next hq
      have := length_lt_of_next ho
      exact skipBlanks_of_readDimensions o hdims
    · rw [ifNext_of_not_next hclose] at h
      cases h
  · rw [ifNext_of_not_next hopen] at h
    cases h
    exact skipBlanks_idem s
termination_by s.length

lemma skipBlanks_of_readType {t : FieldType} {r : List Char}
    (h : ending (readType s) = (.ok t, r)) : Text.skipBlanks r = r := by
  rw [ending_readType] at h
  obtain ⟨name, r, -, h⟩ := andThen_eq_ok h
  obtain ⟨arguments, q, -, h⟩ := andThen_eq_ok h
  obtain ⟨n, o, hdims, h⟩ := andThen_eq_ok h
  cases h
  exact skipBlanks_of_readDimensions q hdims

end SavedState.FieldType
