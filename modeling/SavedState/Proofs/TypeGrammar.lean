import Mathlib.Tactic.Common
import SavedState.FieldType.Reader

/-!
The grammar of the text of a field's type.

A type is written as a tree of names, arguments, wildcards and dimensions, and the tree says in
which order its tokens come. Blanks may follow every token, and have to stand between two names,
since a name goes on as long as it can. No text is written of two trees.
-/

namespace SavedState.Text

/-- What is taken from a text as far as `p` holds. -/
lemma takeWhile_append_of_ends {p : Char → Bool} {text s : List Char} (h : ∀ c ∈ text, p c = true)
    (hs : ∀ c ∈ s.head?, p c = false) :
    (text ++ s).takeWhile p = text ∧ (text ++ s).dropWhile p = s := by
  rw [List.takeWhile_append_of_pos h, List.dropWhile_append_of_pos h]
  cases s with
  | nil => simp
  | cons c s =>
    have hc : ¬p c = true := Bool.eq_false_iff.1 (hs c rfl)
    rw [List.takeWhile_cons_of_neg hc, List.dropWhile_cons_of_neg hc, List.append_nil]
    exact ⟨rfl, rfl⟩

end SavedState.Text

namespace SavedState.FieldType

/-! ### Trees -/

mutual

/-- `name arguments? dimensions`; a type without arguments has no angle brackets. -/
inductive Written where
  | type (name : List Char) (arguments : List WrittenArgument) (dimensions : Nat)

/-- `type`, or `?` alone, or `?` with `extends` or `super` and a type. -/
inductive WrittenArgument where
  | type (t : Written)
  | wildcard
  | upper (bound : Written)
  | lower (bound : Written)

end

inductive Token where
  | name (text : List Char)
  | mark (c : Char)
deriving DecidableEq

/-- `('[' ']')*` -/
def dimensionTokens : Nat → List Token
  | 0 => []
  | n + 1 => .mark '[' :: .mark ']' :: dimensionTokens n

mutual

def Written.tokens : Written → List Token
  | .type name arguments dimensions =>
    .name name :: (argumentTokens arguments ++ dimensionTokens dimensions)

/-- `('<' argument (',' argument)* '>')?` -/
def argumentTokens : List WrittenArgument → List Token
  | [] => []
  | a :: as => .mark '<' :: (a.tokens ++ moreTokens as)

/-- `(',' argument)* '>'` -/
def moreTokens : List WrittenArgument → List Token
  | [] => [.mark '>']
  | a :: as => .mark ',' :: (a.tokens ++ moreTokens as)

def WrittenArgument.tokens : WrittenArgument → List Token
  | .type t => t.tokens
  | .wildcard => [.mark '?']
  | .upper bound => .mark '?' :: .name "extends".toList :: bound.tokens
  | .lower bound => .mark '?' :: .name "super".toList :: bound.tokens

end

lemma Written.tokens_append (name : List Char) (arguments : List WrittenArgument)
    (dimensions : Nat) (ts : List Token) :
    (Written.type name arguments dimensions).tokens ++ ts =
      .name name :: (argumentTokens arguments ++ (dimensionTokens dimensions ++ ts)) := by
  rw [Written.tokens, List.cons_append, List.append_assoc]

lemma argumentTokens_append (a : WrittenArgument) (arguments : List WrittenArgument)
    (ts : List Token) : argumentTokens (a :: arguments) ++ ts =
      .mark '<' :: (a.tokens ++ (moreTokens arguments ++ ts)) := by
  rw [argumentTokens, List.cons_append, List.append_assoc]

lemma moreTokens_append (a : WrittenArgument) (arguments : List WrittenArgument)
    (ts : List Token) : moreTokens (a :: arguments) ++ ts =
      .mark ',' :: (a.tokens ++ (moreTokens arguments ++ ts)) := by
  rw [moreTokens, List.cons_append, List.append_assoc]

mutual

/-- The type that is meant: a wildcard is its upper bound, or any object. -/
def Written.erased : Written → FieldType
  | .type name arguments dimensions =>
    ⟨String.ofList name, erasedAll arguments, dimensions, .empty⟩

def erasedAll : List WrittenArgument → List FieldType
  | [] => []
  | a :: as => a.erased :: erasedAll as

def WrittenArgument.erased : WrittenArgument → FieldType
  | .type t => t.erased
  | .wildcard => named "java.lang.Object"
  | .upper bound => bound.erased
  | .lower _ => named "java.lang.Object"

end

/-! ### Tokens in a text -/

/-- Identifiers with a dot between any two of them. -/
def IsTypeName (name : List Char) : Prop :=
  ∃ parts, parts ≠ [] ∧ (∀ p ∈ parts, isIdentifier p = true) ∧ name = ['.'].intercalate parts

def marks : List Char := ['<', '>', ',', '[', ']', '?']

def AllBlank (s : List Char) : Prop := ∀ c ∈ s, Text.isBlank c = true

/-- What tokens are written as. -/
inductive Spells : List Token → List Char → Prop where
  | nil : Spells [] []
  | name {text blanks ts s} (hn : IsTypeName text) (hb : AllBlank blanks)
      (hsep : blanks = [] → ∀ other, ts.head? ≠ some (.name other)) (h : Spells ts s) :
      Spells (.name text :: ts) (text ++ blanks ++ s)
  | mark {c blanks ts s} (hc : c ∈ marks) (hb : AllBlank blanks) (h : Spells ts s) :
      Spells (.mark c :: ts) (c :: blanks ++ s)

/-! ### Characters -/

lemma isName_iff {name : List Char} : isName name = true ↔ IsTypeName name := by
  unfold isName IsTypeName
  rw [List.all_eq_true]
  constructor
  · intro h
    exact ⟨_, Text.parts_ne_nil '.' name, h, (Text.join_parts '.' name).symm⟩
  · rintro ⟨parts, hne, hp, rfl⟩
    rw [Text.parts_join hne fun p hm => dot_not_mem_of_isIdentifier (hp p hm)]
    exact hp

lemma isNameChar_of_isBlank {c : Char} (h : Text.isBlank c = true) : isNameChar c = false := by
  have hall : ∀ r ∈ Text.blankRanges, ∀ n ∈ List.range' r.1 (r.2 - r.1 + 1),
      isNameChar (Char.ofNat n) = false := by decide +kernel
  obtain ⟨r, hr, hlo, hhi⟩ := Text.Ranges.has_iff.1 h
  have := hall r hr c.toNat (List.mem_range'_1.2 ⟨hlo, by omega⟩)
  rwa [Char.ofNat_toNat] at this

lemma of_mem_marks {c : Char} (h : c ∈ marks) :
    isNameChar c = false ∧ Text.isBlank c = false := by
  have hall : (marks.all fun d => !isNameChar d && !Text.isBlank d) = true := by decide
  simpa using List.all_eq_true.1 hall c h

namespace IsTypeName

variable {name : List Char}

lemma ne_nil (h : IsTypeName name) : name ≠ [] := by
  rintro rfl
  exact Bool.false_ne_true (isName_iff.2 h)

lemma isNameChar (h : IsTypeName name) : ∀ c ∈ name, FieldType.isNameChar c = true := by
  obtain ⟨parts, -, hp, rfl⟩ := h
  induction parts with
  | nil => exact List.forall_mem_nil _
  | cons p parts ih =>
    rw [List.forall_mem_cons] at hp
    have hpart : ∀ c ∈ p, FieldType.isNameChar c = true := by
      intro c hc
      have := List.all_eq_true.1 (all_part_of_isIdentifier hp.1) c hc
      rw [FieldType.isNameChar, this, Bool.true_or]
    cases parts with
    | nil => simpa [List.intercalate, List.intersperse] using hpart
    | cons q parts =>
      have hjoin : ['.'].intercalate (p :: q :: parts) =
          p ++ '.' :: ['.'].intercalate (q :: parts) := by
        simp [List.intercalate, List.intersperse]
      rw [hjoin, List.forall_mem_append, List.forall_mem_cons]
      exact ⟨hpart, rfl, ih hp.2⟩

end IsTypeName

/-! ### One token after another -/

lemma skipBlanks_append {blanks s : List Char} (h : AllBlank blanks) :
    Text.skipBlanks (blanks ++ s) = Text.skipBlanks s :=
  List.dropWhile_append_of_pos h

lemma skipBlanks_cons {c : Char} (h : Text.isBlank c = false) (s : List Char) :
    Text.skipBlanks (c :: s) = c :: s :=
  List.dropWhile_cons_of_neg (Bool.eq_false_iff.1 h)

/-- What tokens are written as does not begin with a blank. -/
lemma Spells.skipBlanks {ts : List Token} {s : List Char} (h : Spells ts s) :
    Text.skipBlanks s = s := by
  cases h with
  | nil => rfl
  | mark hc hb h => exact skipBlanks_cons (of_mem_marks hc).2 _
  | @name text blanks ts s hn hb hsep h =>
    cases text with
    | nil => exact absurd rfl hn.ne_nil
    | cons c text =>
      refine skipBlanks_cons (Bool.eq_false_iff.2 fun hblank => ?_) _
      have := hn.isNameChar c List.mem_cons_self
      rw [isNameChar_of_isBlank hblank] at this
      exact Bool.false_ne_true this

/-- Tokens that blanks may stand in front of. -/
def Trails (ts : List Token) (s : List Char) : Prop := Spells ts (Text.skipBlanks s)

lemma Spells.trails {ts : List Token} {s : List Char} (h : Spells ts s) : Trails ts s := by
  unfold Trails
  rwa [h.skipBlanks]

lemma Spells.trails_append {ts : List Token} {blanks s : List Char} (h : Spells ts s)
    (hb : AllBlank blanks) : Trails ts (blanks ++ s) := by
  unfold Trails
  rwa [skipBlanks_append hb, h.skipBlanks]

/-- The blanks that a text begins with, and the rest. -/
lemma exists_blanks (s : List Char) : ∃ blanks, AllBlank blanks ∧ s = blanks ++ Text.skipBlanks s :=
  ⟨s.takeWhile Text.isBlank, List.all_eq_true.1 List.all_takeWhile,
    List.takeWhile_append_dropWhile.symm⟩

/-- Where a name cannot go on. -/
def EndsName (s : List Char) : Prop := ∀ c ∈ s.head?, isNameChar c = false

lemma endsName_mark {c : Char} (hc : c ∈ marks) (s : List Char) : EndsName (c :: s) := by
  rintro d ⟨⟩
  exact (of_mem_marks hc).1

lemma endsName_dropWhile (s : List Char) : EndsName (s.dropWhile isNameChar) := by
  intro c hc
  have hnot := List.head?_dropWhile_not isNameChar s
  rw [Option.mem_def.1 hc] at hnot
  exact hnot

lemma EndsName.of_spells {blanks s : List Char} {ts : List Token} (hb : AllBlank blanks)
    (hsep : blanks = [] → ∀ other, ts.head? ≠ some (.name other)) (h : Spells ts s) :
    EndsName (blanks ++ s) := by
  intro c hc
  cases blanks with
  | cons b blanks =>
    cases hc
    exact isNameChar_of_isBlank (hb c List.mem_cons_self)
  | nil =>
    cases h with
    | nil => cases hc
    | mark hm _ _ => exact endsName_mark hm _ c hc
    | name _ _ _ _ => exact absurd rfl (hsep rfl _)

/-- Where a name cannot go on, none begins. -/
lemma EndsName.not_spells_name {s : List Char} {ts : List Token} {other : List Char}
    (hs : EndsName s) (h : Spells ts s) (ho : ts.head? = some (.name other)) : False := by
  cases h with
  | nil => cases ho
  | mark _ _ _ => cases ho
  | @name text _ _ _ hn _ _ _ =>
    cases text with
    | nil => exact hn.ne_nil rfl
    | cons c text =>
      have := hn.isNameChar c List.mem_cons_self
      rw [hs c rfl] at this
      exact Bool.false_ne_true this

lemma takeWhile_name {text s : List Char} (hn : IsTypeName text) (hs : EndsName s) :
    (text ++ s).takeWhile isNameChar = text ∧ (text ++ s).dropWhile isNameChar = s :=
  Text.takeWhile_append_of_ends hn.isNameChar hs

lemma spells_nil_iff {s : List Char} : Spells [] s ↔ s = [] := by
  constructor
  · rintro ⟨⟩
    rfl
  · rintro rfl
    exact .nil

/-- Only no tokens at all are written as nothing. -/
lemma Spells.eq_nil {ts : List Token} (h : Spells ts []) : ts = [] := by
  generalize hs : ([] : List Char) = s at h
  cases h with
  | nil => rfl
  | mark _ _ _ => cases hs
  | name hn _ _ _ =>
    rw [List.append_assoc] at hs
    exact absurd (List.append_eq_nil_iff.1 hs.symm).1 hn.ne_nil

lemma spells_mark_iff {c : Char} {ts : List Token} {s : List Char} :
    Spells (.mark c :: ts) s ↔ c ∈ marks ∧ ∃ r, s = c :: r ∧ Trails ts r := by
  constructor
  · rintro (_ | _ | ⟨hc, hb, h⟩)
    exact ⟨hc, _, rfl, h.trails_append hb⟩
  · rintro ⟨hc, r, rfl, h⟩
    obtain ⟨blanks, hb, hr⟩ := exists_blanks r
    rw [hr]
    exact .mark hc hb h

/-- A name comes first just if the text begins with one, taken as far as it goes. -/
lemma spells_name_iff {text : List Char} {ts : List Token} {s : List Char} :
    Spells (.name text :: ts) s ↔ IsTypeName text ∧ s.takeWhile isNameChar = text ∧
      Trails ts (s.dropWhile isNameChar) := by
  constructor
  · rintro (_ | ⟨hn, hb, hsep, h⟩ | _)
    obtain ⟨htake, hdrop⟩ := takeWhile_name hn (.of_spells hb hsep h)
    rw [List.append_assoc, hdrop]
    exact ⟨hn, htake, h.trails_append hb⟩
  · rintro ⟨hn, htake, h⟩
    obtain ⟨blanks, hb, hr⟩ := exists_blanks (s.dropWhile isNameChar)
    have hsep : blanks = [] → ∀ other, ts.head? ≠ some (.name other) := by
      rintro rfl other ho
      exact (hr ▸ endsName_dropWhile s).not_spells_name h ho
    have hs : s = text ++ blanks ++ Text.skipBlanks (s.dropWhile isNameChar) := by
      rw [List.append_assoc, ← hr, ← htake, List.takeWhile_append_dropWhile]
    rw [hs]
    exact .name hn hb hsep h

instance Spells.decidable : (ts : List Token) → (s : List Char) → Decidable (Spells ts s)
  | [], s => decidable_of_iff (s = []) spells_nil_iff.symm
  | .name text :: ts, s =>
    have := Spells.decidable ts (Text.skipBlanks (s.dropWhile isNameChar))
    decidable_of_iff (isName text = true ∧ s.takeWhile isNameChar = text ∧
      Spells ts (Text.skipBlanks (s.dropWhile isNameChar)))
      ((and_congr_left' isName_iff).trans spells_name_iff.symm)
  | .mark c :: ts, [] => .isFalse fun h => by
    obtain ⟨-, r, hr, -⟩ := spells_mark_iff.1 h
    cases hr
  | .mark c :: ts, d :: r =>
    have := Spells.decidable ts (Text.skipBlanks r)
    decidable_of_iff (c ∈ marks ∧ d = c ∧ Spells ts (Text.skipBlanks r)) <| by
      rw [spells_mark_iff]
      refine and_congr_right fun _ => ⟨?_, ?_⟩
      · rintro ⟨rfl, h⟩
        exact ⟨r, rfl, h⟩
      · rintro ⟨q, hq, h⟩
        cases hq
        exact ⟨rfl, h⟩

/-- A mark is no part of a name. -/
lemma not_spells_mark_name {c : Char} {text : List Char} {ts ts' : List Token} {s : List Char}
    (h : Spells (.mark c :: ts) s) (h' : Spells (.name text :: ts') s) : False := by
  obtain ⟨hc, r, rfl, -⟩ := spells_mark_iff.1 h
  exact (endsName_mark hc r).not_spells_name h' rfl

/-- **A text is written of one row of tokens.** -/
theorem Spells.unique {ts ts' : List Token} {s : List Char} (h : Spells ts s)
    (h' : Spells ts' s) : ts = ts' := by
  induction ts generalizing ts' s with
  | nil =>
    cases spells_nil_iff.1 h
    exact (Spells.eq_nil h').symm
  | cons t ts ih =>
    cases ts' with
    | nil =>
      cases spells_nil_iff.1 h'
      exact Spells.eq_nil h
    | cons t' ts' =>
      cases t with
      | name text =>
        cases t' with
        | mark c => exact (not_spells_mark_name h' h).elim
        | name text' =>
          obtain ⟨-, htake, hr⟩ := spells_name_iff.1 h
          obtain ⟨-, htake', hr'⟩ := spells_name_iff.1 h'
          rw [← htake, ← htake', ih hr hr']
      | mark c =>
        cases t' with
        | name text' => exact (not_spells_mark_name h h').elim
        | mark c' =>
          obtain ⟨-, r, rfl, hr⟩ := spells_mark_iff.1 h
          obtain ⟨-, r', heq, hr'⟩ := spells_mark_iff.1 h'
          cases heq
          rw [ih hr hr']

/-! ### No two trees -/

/-- What may come after a type: nothing, another argument or the end of the arguments. -/
def Closes (ts : List Token) : Prop := ∀ t ∈ ts.head?, t = .mark ',' ∨ t = .mark '>'

lemma closes_moreTokens (arguments : List WrittenArgument) (ts : List Token) :
    Closes (moreTokens arguments ++ ts) := by
  intro t ht
  cases arguments <;> cases ht
  · exact .inr rfl
  · exact .inl rfl

lemma not_closes_name {text : List Char} {ts : List Token} : ¬Closes (.name text :: ts) := by
  intro h
  rcases h _ rfl with h | h <;> cases h

lemma dimensionTokens_inj {n m : Nat} {ts ts' : List Token}
    (h : dimensionTokens n ++ ts = dimensionTokens m ++ ts') (hts : Closes ts)
    (hts' : Closes ts') : n = m ∧ ts = ts' := by
  have hopen : ∀ {ts}, ¬Closes (.mark '[' :: ts) := by
    intro ts h
    rcases h _ rfl with h | h <;> cases h
  induction n generalizing m with
  | zero =>
    cases m with
    | zero => exact ⟨rfl, h⟩
    | succ m => exact (hopen (h ▸ hts : Closes (dimensionTokens (m + 1) ++ ts'))).elim
  | succ n ih =>
    cases m with
    | zero => exact (hopen (h ▸ hts' : Closes (dimensionTokens (n + 1) ++ ts))).elim
    | succ m =>
      obtain ⟨rfl, rfl⟩ := ih (List.cons.inj (List.cons.inj h).2).2
      exact ⟨rfl, rfl⟩

/-- The dimensions of a type come after its arguments. -/
lemma dimensionTokens_ne_argumentTokens {n : Nat} {ts ts' : List Token} {a : WrittenArgument}
    {arguments : List WrittenArgument} (hts : Closes ts) :
    dimensionTokens n ++ ts ≠ argumentTokens (a :: arguments) ++ ts' := by
  intro h
  cases n with
  | zero =>
    have : Closes (argumentTokens (a :: arguments) ++ ts') := h ▸ hts
    rcases this _ rfl with h | h <;> cases h
  | succ n => cases h

mutual

/-- **A row of tokens belongs to one type**, and to what comes after it. -/
theorem Written.tokens_inj (e e' : Written) (ts ts' : List Token)
    (h : e.tokens ++ ts = e'.tokens ++ ts') (hts : Closes ts) (hts' : Closes ts') :
    e = e' ∧ ts = ts' := by
  match e, e' with
  | .type name arguments dimensions, .type name' arguments' dimensions' =>
    rw [Written.tokens_append, Written.tokens_append] at h
    obtain ⟨hname, hrest⟩ := List.cons.inj h
    cases hname
    obtain ⟨rfl, rfl, rfl⟩ := argumentTokens_inj arguments arguments' _ _ ts ts' hrest hts hts'
    exact ⟨rfl, rfl⟩

theorem argumentTokens_inj (arguments arguments' : List WrittenArgument) (n n' : Nat)
    (ts ts' : List Token) (h : argumentTokens arguments ++ (dimensionTokens n ++ ts) =
      argumentTokens arguments' ++ (dimensionTokens n' ++ ts'))
    (hts : Closes ts) (hts' : Closes ts') : arguments = arguments' ∧ n = n' ∧ ts = ts' := by
  match arguments, arguments' with
  | [], [] => exact ⟨rfl, dimensionTokens_inj h hts hts'⟩
  | [], a' :: arguments' => exact (dimensionTokens_ne_argumentTokens hts h).elim
  | a :: arguments, [] => exact (dimensionTokens_ne_argumentTokens hts' h.symm).elim
  | a :: arguments, a' :: arguments' =>
    rw [argumentTokens_append, argumentTokens_append] at h
    obtain ⟨rfl, hmore⟩ := a.tokens_inj a' _ _ (List.cons.inj h).2 (closes_moreTokens _ _)
      (closes_moreTokens _ _)
    obtain ⟨rfl, hdims⟩ := moreTokens_inj arguments arguments' _ _ hmore
    exact ⟨rfl, dimensionTokens_inj hdims hts hts'⟩

theorem moreTokens_inj (arguments arguments' : List WrittenArgument) (ts ts' : List Token)
    (h : moreTokens arguments ++ ts = moreTokens arguments' ++ ts') :
    arguments = arguments' ∧ ts = ts' := by
  match arguments, arguments' with
  | [], [] => exact ⟨rfl, (List.cons.inj h).2⟩
  | [], _ :: _ => cases h
  | _ :: _, [] => cases h
  | a :: arguments, a' :: arguments' =>
    rw [moreTokens_append, moreTokens_append] at h
    obtain ⟨rfl, hmore⟩ := a.tokens_inj a' _ _ (List.cons.inj h).2 (closes_moreTokens _ _)
      (closes_moreTokens _ _)
    obtain ⟨rfl, rfl⟩ := moreTokens_inj arguments arguments' ts ts' hmore
    exact ⟨rfl, rfl⟩

theorem WrittenArgument.tokens_inj (a a' : WrittenArgument) (ts ts' : List Token)
    (h : a.tokens ++ ts = a'.tokens ++ ts') (hts : Closes ts) (hts' : Closes ts') :
    a = a' ∧ ts = ts' := by
  match a, a' with
  | .type t, .type t' =>
    obtain ⟨rfl, rfl⟩ := t.tokens_inj t' ts ts' h hts hts'
    exact ⟨rfl, rfl⟩
  | .wildcard, .wildcard => exact ⟨rfl, (List.cons.inj h).2⟩
  | .upper b, .upper b' =>
    obtain ⟨rfl, rfl⟩ := b.tokens_inj b' ts ts' (List.cons.inj (List.cons.inj h).2).2 hts hts'
    exact ⟨rfl, rfl⟩
  | .lower b, .lower b' =>
    obtain ⟨rfl, rfl⟩ := b.tokens_inj b' ts ts' (List.cons.inj (List.cons.inj h).2).2 hts hts'
    exact ⟨rfl, rfl⟩
  | .type ⟨_, _, _⟩, .wildcard | .type ⟨_, _, _⟩, .upper _ | .type ⟨_, _, _⟩, .lower _ => cases h
  | .wildcard, .type ⟨_, _, _⟩ | .upper _, .type ⟨_, _, _⟩ | .lower _, .type ⟨_, _, _⟩ => cases h
  | .wildcard, .upper _ | .wildcard, .lower _ =>
    have hname : ts = .name _ :: _ := (List.cons.inj h).2
    exact (not_closes_name (hname ▸ hts)).elim
  | .upper _, .wildcard | .lower _, .wildcard =>
    have hname : ts' = .name _ :: _ := (List.cons.inj h).2.symm
    exact (not_closes_name (hname ▸ hts')).elim
  | .upper _, .lower _ | .lower _, .upper _ =>
    have hword := (List.cons.inj (List.cons.inj h).2).1
    exact absurd (Token.name.inj hword) (by decide)

end

end SavedState.FieldType
