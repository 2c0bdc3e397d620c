import SavedState.Json.Written
import SavedState.Proofs.WrittenStrings

/-!
Lists and records in JSON, written and read back.

A list is read item by item and a record member by member. What comes of the whole is known from
what comes of the parts: their values, or the first error among them.
-/

namespace SavedState

/-! ### What readers come to -/

namespace Text.Reader

variable {ε α β : Type} {x : Reader ε α} {f : α → Reader ε β} {s r q : List Char} {a : α}
  {y : Except ε α} {z : α → Except ε β}

/-- What a reader comes to on a text. Where that is a value, `r` is left of the text. -/
def Runs (x : Reader ε α) (s : List Char) (y : Except ε α) (r : List Char) : Prop :=
  match y with
  | .ok a => x.Takes s a r
  | .error e => x s = .error e

lemma Takes.runs (h : x.Takes s a r) : x.Runs s (.ok a) r := h

lemma bind_eq_error {e : ε} (h : x s = .error e) : (x >>= f) s = .error e := by
  change Reader.bind x f s = _
  unfold Reader.bind
  rw [h]

lemma Takes.bind_error {e : ε} (hx : x.Takes s a r) (hf : f a r = .error e) :
    (x >>= f) s = .error e := by
  obtain ⟨hr, hx⟩ := hx
  change Reader.bind x f s = _
  unfold Reader.bind
  rw [hx]
  dsimp only
  rw [hf]

lemma Takes.bind_runs {y : Except ε β} (hx : x.Takes s a r) (hf : (f a).Runs r y q) :
    (x >>= f).Runs s y q := by
  cases y with
  | ok b => exact hx.bind hf
  | error e => exact hx.bind_error hf

lemma Runs.bind (hx : x.Runs s y r) (hf : ∀ a, y = .ok a → (f a).Runs r (z a) q) :
    (x >>= f).Runs s (y >>= z) q := by
  cases y with
  | ok a => exact Takes.bind_runs hx (hf a rfl)
  | error e => exact bind_eq_error hx

lemma Runs.map (hx : x.Runs s y r) (g : α → β) : (g <$> x).Runs s (g <$> y) r := by
  cases y with
  | ok a => exact Takes.map hx g
  | error e => exact bind_eq_error hx

/-- A reader that succeeds wherever the one before it does. -/
lemma Runs.bind_takes {g : α → β} (hx : x.Runs s y r)
    (hf : ∀ a, y = .ok a → (f a).Takes r (g a) q) : (x >>= f).Runs s (g <$> y) q := by
  cases y with
  | ok a => exact Takes.bind hx (hf a rfl)
  | error e => exact bind_eq_error hx

lemma runs_ofExcept (y : Except ε α) (s : List Char) : (ofExcept y).Runs s y s := by
  cases y with
  | ok a => exact takes_ofExcept rfl s
  | error e => rfl

/-! #### Repetitions -/

/-- The last step of a repetition. -/
lemma Runs.stop {step : β → Reader ε (β × Bool)} {b : β} {y : Except ε β}
    (h : (step b).Runs s ((·, false) <$> y) r) : Runs (iterate step b) s y r := by
  cases y with
  | ok c => exact Takes.stop h
  | error e =>
    change step b s = .error e at h
    change iterate step b s = .error e
    unfold iterate
    rw [h]

/-- One step of a repetition that goes on. -/
lemma Runs.next {step : β → Reader ε (β × Bool)} {b : β} {y : Except ε β} {z : β → Except ε β}
    (h : (step b).Runs s ((·, true) <$> y) r) (hne : r ≠ s)
    (hrest : ∀ c, y = .ok c → Runs (iterate step c) r (z c) q) :
    Runs (iterate step b) s (y >>= z) q := by
  cases y with
  | error e =>
    change step b s = .error e at h
    change iterate step b s = .error e
    unfold iterate
    rw [h]
  | ok c =>
    have hrest := hrest c rfl
    change Runs (iterate step b) s (z c) q
    cases hz : z c with
    | ok d =>
      rw [hz] at hrest
      exact Takes.next h hne hrest
    | error e =>
      rw [hz] at hrest
      obtain ⟨hr, h⟩ := h
      change iterate step c r = .error e at hrest
      change iterate step b s = .error e
      have hgoes : (true && r != s) = true := by simpa using hne
      unfold iterate
      rw [h]
      dsimp only
      rw [dif_pos hgoes, hrest]

variable {step : Reader ε (List α × Bool)} {l l' : Except ε (List α)}

/-- A step that puts what it finds in front of what has been collected, in reverse. -/
def gathering (step : Reader ε (List α × Bool)) (collected : List α) :
    Reader ε (List α × Bool) := do
  let (found, goesOn) ← step
  return (found.reverse ++ collected, goesOn)

/-- What a step collects, whatever has been collected before. -/
def Collects (step : Reader ε (List α × Bool)) (s : List Char) (l : Except ε (List α))
    (r : List Char) : Prop :=
  ∀ collected, Runs (iterate (gathering step) collected) s
    ((fun l => l.reverse ++ collected) <$> l) r

lemma Collects.runs (h : Collects step s l r) : (collect step).Runs s l r := by
  have hall := (h []).map List.reverse
  cases l with
  | ok l =>
    change Runs _ s (.ok (l.reverse ++ []).reverse) r at hall
    rw [List.append_nil, List.reverse_reverse] at hall
    exact hall
  | error e => exact hall

lemma Collects.stop (h : step.Runs s ((·, false) <$> l) r) : Collects step s l r := by
  intro collected
  have hfound := h.map fun p => (p.1.reverse ++ collected, p.2)
  refine Runs.stop ?_
  cases l <;> exact hfound

lemma Collects.next (h : step.Runs s ((·, true) <$> l) r) (hne : r ≠ s)
    (hrest : Collects step r l' q) :
    Collects step s (l >>= fun found => (found ++ ·) <$> l') q := by
  intro collected
  have hstep : (gathering step collected).Runs s
      ((·, true) <$> (fun found => found.reverse ++ collected) <$> l) r := by
    have hfound := h.map fun p => (p.1.reverse ++ collected, p.2)
    cases l <;> exact hfound
  have hall := Runs.next (z := fun c => (fun l => l.reverse ++ c) <$> l') hstep hne
    fun c _ => hrest c
  cases l with
  | error e => exact hall
  | ok found =>
    cases l' with
    | error e => exact hall
    | ok more =>
      change Runs _ s (.ok ((found ++ more).reverse ++ collected)) q
      rw [List.reverse_append, List.append_assoc]
      exact hall

end Text.Reader

namespace Json

open Text.Reader

variable {α β γ : Type} {s r q : List Char} {c : Char}

/-- A text that is read to its end. -/
lemma readText_of_runs {x : Reader α} {text : String} {y : Except ReadError α}
    (h : x.Runs text.toList y []) : readText x text = y := by
  cases y with
  | ok a => exact readText_eq_ok h
  | error e =>
    change x text.toList = .error e at h
    unfold readText
    rw [h]

/-! ### Lists -/

/-- Texts with a comma between any two of them. -/
def joined : List (List Char) → List Char
  | [] => []
  | t :: ts => t ++ ts.flatMap (',' :: ·)

lemma joined_cons_cons (t u : List Char) (ts : List (List Char)) :
    joined (t :: u :: ts) = t ++ ',' :: joined (u :: ts) := by
  rw [joined, joined, List.flatMap_cons, List.cons_append]

lemma toList_joined (texts : List String) :
    (",".intercalate texts).toList = joined (texts.map String.toList) := by
  rw [String.toList_intercalate]
  induction texts.map String.toList with
  | nil => rfl
  | cons t ts ih =>
    cases ts with
    | nil => simp [joined, List.intercalate, List.intersperse]
    | cons u ts =>
      rw [joined_cons_cons, ← ih]
      simp [List.intercalate, List.intersperse]

lemma toList_writeArray (items : List String) :
    (writeArray items).toList = '[' :: (joined (items.map String.toList) ++ [']']) := by
  rw [writeArray, String.toList_append, String.toList_append, toList_joined]
  rfl

/-- What comes behind an item: the bracket that closes, or a comma where another item follows. -/
def separator (close : Char) (a : α) : Reader (α × Bool) := do
  let c ← peek
  if c = some close then
    drop
    return (a, false)
  else if c = some ',' then
    drop
    return (a, true)
  else .fail (unexpected c)

lemma takes_separator_close {close : Char} {blanks : List Char} (hb : IsSpacing blanks)
    (hblank : isBlank close = false) (a : α) (r : List Char) :
    (separator close a).Takes (blanks ++ close :: r) (a, false) r := by
  refine (takes_peek_behind hb hblank r).bind ?_
  rw [if_pos rfl]
  exact (takes_drop _ r).bind (takes_pure _ r)

lemma takes_separator_comma {close : Char} {blanks : List Char} (hb : IsSpacing blanks)
    (hclose : ',' ≠ close) (a : α) (r : List Char) :
    (separator close a).Takes (blanks ++ ',' :: r) (a, true) r := by
  refine (takes_peek_behind hb (by decide) r).bind ?_
  rw [if_neg fun h => hclose (Option.some.inj h), if_pos rfl]
  exact (takes_drop _ r).bind (takes_pure _ r)

/-- An item of an array, with the comma or the bracket after it. -/
def itemStep (item : Reader α) : Reader (List α × Bool) := do
  let a ← item
  separator ']' [a]

lemma moreItems_eq (item : Reader α) : moreItems item = collect (itemStep item) := rfl

variable {item : Reader α} {y : Except ReadError α}

lemma runs_itemStep {goesOn : Bool} (h : item.Runs s y r)
    (hend : ∀ a : α, (separator ']' [a]).Takes r ([a], goesOn) q) :
    (itemStep item).Runs s ((·, goesOn) <$> ([·]) <$> y) q := by
  have hstep : (itemStep item).Runs s ((fun a => ([a], goesOn)) <$> y) q :=
    h.bind_takes fun a _ => hend a
  cases y <;> exact hstep

variable {text : γ → List Char} {value : γ → Except ReadError α} {l : List γ}

lemma mapM_cons_eq (a : γ) (l : List γ) : (a :: l).mapM value =
    ([·]) <$> value a >>= fun found => (found ++ ·) <$> l.mapM value := by
  rw [List.mapM_cons]
  cases value a with
  | error e => rfl
  | ok b => cases l.mapM value <;> rfl

lemma mapM_singleton_eq (a : γ) : [a].mapM value = ([·]) <$> value a := by
  rw [mapM_cons_eq]
  cases value a <;> rfl

/-- The items of an array, where one of them is. -/
lemma collects_items {a : γ} (h : ∀ b ∈ a :: l, ∀ r, item.Runs (text b ++ r) (value b) r)
    (r : List Char) :
    Collects (itemStep item) (joined ((a :: l).map text) ++ ']' :: r) ((a :: l).mapM value) r := by
  induction l generalizing a with
  | nil =>
    rw [mapM_singleton_eq, List.map_singleton, joined, List.flatMap_nil, List.append_nil]
    exact Collects.stop (runs_itemStep (h a List.mem_cons_self _) fun b =>
      takes_separator_close isSpacing_nil (by decide) [b] r)
  | cons b l ih =>
    rw [List.forall_mem_cons] at h
    rw [mapM_cons_eq, List.map_cons, List.map_cons, joined_cons_cons, List.append_assoc,
      List.cons_append]
    refine Collects.next (runs_itemStep (h.1 _) fun c =>
      takes_separator_comma isSpacing_nil (by decide) [c] _) ?_ (ih h.2)
    intro heq
    have := congrArg List.length heq
    simp only [List.length_append, List.length_cons] at this
    omega

/-- Where a value begins that is not the end of an array. -/
def StartsItem (s : List Char) : Prop := ∃ c t, s = c :: t ∧ isBlank c = false ∧ c ≠ ']'

/-- **A list is read item by item.** -/
lemma runs_readList (h : ∀ a ∈ l, StartsItem (text a) ∧ ∀ r, item.Runs (text a ++ r) (value a) r)
    (r : List Char) :
    (readList item).Runs ('[' :: (joined (l.map text) ++ ']' :: r)) (l.mapM value) r := by
  refine (takes_peek (by decide) _).bind_runs ?_
  rw [if_pos rfl]
  refine (takes_drop _ _).bind_runs ?_
  cases l with
  | nil =>
    refine (takes_peek (by decide) r).bind_runs ?_
    rw [if_pos rfl]
    exact ((takes_drop _ r).bind (takes_pure [] r)).runs
  | cons a l =>
    obtain ⟨c, t, ht, hblank, hc⟩ := (h a List.mem_cons_self).1
    have hitems := collects_items (fun b hb => (h b hb).2) r
    have hbegins : joined ((a :: l).map text) ++ ']' :: r =
        c :: (t ++ (l.map text).flatMap (',' :: ·) ++ ']' :: r) := by
      rw [List.map_cons, joined, ht]
      simp
    rw [hbegins] at hitems ⊢
    refine (takes_peek hblank _).bind_runs ?_
    rw [if_neg fun h => hc (Option.some.inj h), moreItems_eq]
    exact hitems.runs

/-! ### Records -/

lemma toList_writeObject (members : List (String × String)) :
    (writeObject members).toList = '\x7b' ::
      (joined (members.map fun m => (quote m.1).toList ++ ':' :: m.2.toList) ++ ['\x7d']) := by
  rw [writeObject, String.toList_append, String.toList_append, toList_joined, List.map_map]
  simp [Function.comp_def]

/-- A member of an object, with the comma or the bracket after it. -/
def memberStep (member : β → String → Reader β) (b : β) : Reader (β × Bool) := do
  expect '\x22'
  let b ← member b (← stringBody)
  separator '\x7d' b

variable {member : β → String → Reader β} {b : β} {name : String} {m : Except ReadError β}

lemma runs_memberStep {goesOn : Bool} (h : (member b name).Runs s m r)
    (hend : ∀ b : β, (separator '\x7d' b).Takes r (b, goesOn) q) :
    (memberStep member b).Runs ((quote name).toList ++ s) ((·, goesOn) <$> m) q := by
  rw [toList_quote_eq, List.cons_append]
  refine (takes_expect (by decide) _).bind_runs ((takes_stringBody_written name s).bind_runs ?_)
  exact h.bind_takes fun b _ => hend b

lemma runs_membersBody (h : (moreMembers member b).Runs ((quote name).toList ++ s) m r) :
    (membersBody member b).Runs ((quote name).toList ++ s) m r := by
  rw [toList_quote_eq, List.cons_append] at h ⊢
  refine (takes_peek (by decide) _).bind_runs ?_
  rw [if_neg (by decide)]
  exact h

lemma runs_afterColon (h : item.Runs s y r) : (afterColon item).Runs (':' :: s) y r :=
  (takes_expect (by decide) s).bind_runs h

namespace Format

variable {f : Format α β} {field : Field β} {t : List Char}

/-- A member whose name is that of a field not read before. -/
lemma runs_member (hfield : f.fields.find? (fun x => x.name == name) = some field)
    (hnew : field.isRead b = false) (h : (field.read b).Runs s m r) :
    (f.member b name).Runs (':' :: s) m r := by
  unfold member
  rw [hfield]
  dsimp only
  rw [hnew]
  exact runs_afterColon h

lemma runs_last (hfield : f.fields.find? (fun x => x.name == name) = some field)
    (hnew : field.isRead b = false) (h : (field.read b).Runs s m ('\x7d' :: r)) :
    (moreMembers f.member b).Runs ((quote name).toList ++ ':' :: s) m r :=
  Runs.stop (runs_memberStep (runs_member hfield hnew h) fun b =>
    takes_separator_close isSpacing_nil (by decide) b r)

lemma runs_next {value : List Char} {z : β → Except ReadError β}
    (hfield : f.fields.find? (fun x => x.name == name) = some field)
    (hnew : field.isRead b = false)
    (h : (field.read b).Runs (value ++ ',' :: t) m (',' :: t))
    (hrest : ∀ c, m = .ok c → (moreMembers f.member c).Runs t (z c) q) :
    (moreMembers f.member b).Runs ((quote name).toList ++ ':' :: (value ++ ',' :: t)) (m >>= z)
      q := by
  refine Runs.next (runs_memberStep (runs_member hfield hnew h) fun b =>
    takes_separator_comma isSpacing_nil (by decide) b t) (fun heq => ?_) hrest
  have := congrArg List.length heq
  simp only [List.length_append, List.length_cons] at this
  omega

/-- **A record is read member by member**, and is then complete or lacks a field. -/
lemma runs_read (h : (membersBody f.member f.empty).Runs s m r) : f.read.Runs ('\x7b' :: s)
    (m >>= fun b => (f.complete b).mapError .missingField) r := by
  refine (takes_peek (by decide) s).bind_runs ?_
  rw [if_pos rfl]
  exact (takes_drop _ s).bind_runs (h.bind fun b _ => runs_ofExcept _ r)

end Format

/-- A word of a vocabulary, written as a string. -/
lemma runs_readWord (entries : List (String × α)) (word : String) (r : List Char) :
    (readWord entries).Runs ((quote word).toList ++ r) (ofWord entries word) r := by
  rw [toList_quote_eq, List.cons_append]
  refine (takes_peek (by decide) _).bind_runs ?_
  rw [if_pos rfl]
  refine (takes_drop _ _).bind_runs ((takes_stringBody_written word r).bind_runs ?_)
  exact runs_ofExcept _ r

lemma startsItem_quote (text : String) : StartsItem (quote text).toList :=
  ⟨'\x22', quotedBody text, toList_quote_eq text, by decide, by decide⟩

end Json

end SavedState
