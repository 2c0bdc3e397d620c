/-!
Readers of text. A reader takes characters off the front of a text and gives what is left, or
says why it cannot go on. What is left is an end of the text, so a loop that takes something each
time comes to an end itself.
-/

namespace SavedState.Text

/-- What may be left of `s`. -/
abbrev Rest (s : List Char) := { r : List Char // r <:+ s }

def Reader (ε α : Type) : Type := (s : List Char) → Except ε (α × Rest s)

namespace Reader

variable {ε α β : Type}

protected def pure (a : α) : Reader ε α := fun s => .ok (a, ⟨s, s.suffix_refl⟩)

protected def bind (x : Reader ε α) (f : α → Reader ε β) : Reader ε β := fun s =>
  match x s with
  | .error e => .error e
  | .ok (a, ⟨r, hr⟩) =>
    match f a r with
    | .error e => .error e
    | .ok (b, ⟨q, hq⟩) => .ok (b, ⟨q, hq.trans hr⟩)

instance : Monad (Reader ε) where
  pure := Reader.pure
  bind := Reader.bind

def fail (e : ε) : Reader ε α := fun _ => .error e

def ofExcept (x : Except ε α) : Reader ε α := fun s => x.map (·, ⟨s, s.suffix_refl⟩)

/-- Looks at the first character. -/
def head : Reader ε (Option Char) := fun s => .ok (s.head?, ⟨s, s.suffix_refl⟩)

/-- Takes the first character. -/
def drop : Reader ε Unit := fun s => .ok ((), ⟨s.drop 1, s.drop_suffix 1⟩)

/-- Takes the first character if it is `c`. -/
def accept (c : Char) : Reader ε Bool := do
  if (← head) = some c then
    drop
    return true
  else return false

/-- Takes characters as long as they satisfy `p`. -/
def takeWhile (p : Char → Bool) : Reader ε (List Char) := fun s =>
  .ok (s.takeWhile p, ⟨s.dropWhile p, List.dropWhile_suffix p⟩)

/-- Looks at all that is left. -/
def rest : Reader ε (List Char) := fun s => .ok (s, ⟨s, s.suffix_refl⟩)

/-- Takes the characters of a word if they come next. -/
def acceptWord (word : String) : Reader ε Bool := fun s =>
  if word.toList.isPrefixOf s then .ok (true, ⟨s.drop word.length, s.drop_suffix _⟩)
  else .ok (false, ⟨s, s.suffix_refl⟩)

theorem length_lt_of_suffix {r s : List Char} (h : r <:+ s) (hne : r ≠ s) :
    r.length < s.length := by
  rcases Nat.lt_or_eq_of_le h.length_le with hlt | heq
  · exact hlt
  · exact absurd (h.eq_of_length heq) hne

/-- Does a step again and again, as long as it wants to go on and takes something. -/
def iterate (step : β → Reader ε (β × Bool)) (b : β) (s : List Char) : Except ε (β × Rest s) :=
  match step b s with
  | .error e => .error e
  | .ok ((b, goesOn), ⟨r, hr⟩) =>
    if h : goesOn && r != s then
      have := length_lt_of_suffix hr (bne_iff_ne.1 (Bool.and_eq_true_iff.1 h).2)
      match iterate step b r with
      | .error e => .error e
      | .ok (b, ⟨q, hq⟩) => .ok (b, ⟨q, hq.trans hr⟩)
    else .ok (b, ⟨r, hr⟩)
termination_by s.length

/-- Collects what a step gives again and again. -/
def collect (step : Reader ε (List α × Bool)) : Reader ε (List α) := do
  let collected ← iterate (fun collected => do
    let (found, goesOn) ← step
    return (found.reverse ++ collected, goesOn)) []
  return collected.reverse

/-- What is read from a text, if nothing is left over. -/
def runAll (x : Reader ε α) (text : String) : Option α :=
  match x text.toList with
  | .ok (a, ⟨[], _⟩) => some a
  | _ => none

end Reader

end SavedState.Text
