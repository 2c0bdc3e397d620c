import Mathlib.Data.List.Forall2
import Mathlib.Tactic.Common
import SavedState.Proofs.ProperTypes
import SavedState.Run

/-!
What can be relied on in a text that has been read, whatever the text was: a property of all
results of a reader is put together from those of its parts. In particular, the elements of
loaded manifests are fields of proper types, and of the rounds only the last one is final.
-/

namespace SavedState

/-! ### Results -/

section

variable {ε ε' α β : Type}

lemma bind_eq_ok {x : Except ε α} {f : α → Except ε β} {b : β} (h : x >>= f = .ok b) :
    ∃ a, x = .ok a ∧ f a = .ok b := by
  cases x with
  | error e => cases h
  | ok a => exact ⟨a, rfl, h⟩

lemma ok_bind (a : α) (f : α → Except ε β) : (Except.ok a >>= f) = f a := rfl

lemma map_eq_ok {x : Except ε α} {f : α → β} {b : β} (h : f <$> x = .ok b) :
    ∃ a, x = .ok a ∧ b = f a := by
  cases x with
  | error e => cases h
  | ok a => exact ⟨a, rfl, (Except.ok.inj h).symm⟩

lemma mapError_eq_ok {x : Except ε α} {f : ε → ε'} {a : α} (h : x.mapError f = .ok a) :
    x = .ok a := by
  cases x with
  | error e => cases h
  | ok b =>
    cases h
    rfl

lemma exists_of_map_toOption {x : Except ε α} {f : α → β} {b : β}
    (h : x.toOption.map f = some b) : ∃ a, x = .ok a ∧ f a = b := by
  cases x with
  | error e => cases h
  | ok a => exact ⟨a, rfl, Option.some.inj h⟩

lemma mapM_eq_ok_iff {f : α → Except ε β} {l : List α} {l' : List β} :
    l.mapM f = .ok l' ↔ List.Forall₂ (fun a b => f a = .ok b) l l' := by
  induction l generalizing l' with
  | nil =>
    rw [List.forall₂_nil_left_iff]
    exact ⟨fun h => (Except.ok.inj h).symm, fun h => congrArg Except.ok h.symm⟩
  | cons a l ih =>
    rw [List.mapM_cons, List.forall₂_cons_left_iff]
    constructor
    · intro h
      obtain ⟨b, hb, h⟩ := bind_eq_ok h
      obtain ⟨bs, hbs, h⟩ := bind_eq_ok h
      exact ⟨b, bs, hb, ih.1 hbs, (Except.ok.inj h).symm⟩
    · rintro ⟨b, bs, hb, hbs, rfl⟩
      rw [hb, ih.2 hbs]
      rfl

lemma mem_iff_of_forall₂ {f : α → Except ε β} {l : List α} {l' : List β}
    (h : List.Forall₂ (fun a b => f a = .ok b) l l') {b : β} :
    b ∈ l' ↔ ∃ a ∈ l, f a = .ok b := by
  induction h with
  | nil => simp
  | cons hab _ ih => simp [ih, hab, eq_comm]

/-- Entries that are related by way of others. -/
lemma forall₂_exists {γ : Type} {R : α → β → Prop} {S : β → γ → Prop} {l : List α} {n : List γ} :
    List.Forall₂ (fun a c => ∃ b, R a b ∧ S b c) l n ↔
      ∃ m, List.Forall₂ R l m ∧ List.Forall₂ S m n := by
  constructor
  · intro h
    induction h with
    | nil => exact ⟨[], .nil, .nil⟩
    | cons hac _ ih =>
      obtain ⟨b, hab, hbc⟩ := hac
      obtain ⟨m, hlm, hmn⟩ := ih
      exact ⟨b :: m, .cons hab hlm, .cons hbc hmn⟩
  · rintro ⟨m, hlm, hmn⟩
    induction hlm generalizing n with
    | nil =>
      cases hmn
      exact .nil
    | cons hab _ ih =>
      cases hmn with
      | cons hbc hmn => exact .cons ⟨_, hab, hbc⟩ (ih hmn)

end

/-! ### Readers -/

namespace Text.Reader

variable {ε α β : Type} {P : α → Prop} {Q : β → Prop}

/-- Whatever is read satisfies `P`. -/
def Yields (x : Reader ε α) (P : α → Prop) : Prop := ∀ s a r, x s = .ok (a, r) → P a

lemma yields_pure {a : α} (h : P a) : (pure a : Reader ε α).Yields P := by
  intro s b r hb
  cases hb
  exact h

lemma yields_fail (e : ε) : (fail e : Reader ε α).Yields P := by
  intro s a r h
  cases h

lemma yields_ofExcept {x : Except ε α} (h : ∀ a, x = .ok a → P a) : (ofExcept x).Yields P := by
  intro s a r ha
  cases hx : x with
  | error e =>
    rw [hx] at ha
    cases ha
  | ok b =>
    rw [hx] at ha
    cases ha
    exact h _ hx

lemma Yields.bind {x : Reader ε α} {f : α → Reader ε β} (hx : x.Yields P)
    (hf : ∀ a, P a → (f a).Yields Q) : (x >>= f).Yields Q := by
  intro s b r h
  change Reader.bind x f s = _ at h
  unfold Reader.bind at h
  split at h
  · cases h
  · rename_i a q hq ha
    split at h
    · cases h
    · rename_i c p hp hc
      cases h
      exact hf a (hx _ _ _ ha) _ _ _ hc

/-- Where it does not matter what the first of two readers gives. -/
lemma yields_bind {x : Reader ε α} {f : α → Reader ε β} (hf : ∀ a, (f a).Yields Q) :
    (x >>= f).Yields Q :=
  Yields.bind (P := fun _ => True) (fun _ _ _ _ => trivial) fun a _ => hf a

lemma Yields.map {x : Reader ε α} {f : α → β} (hx : x.Yields P) (hf : ∀ a, P a → Q (f a)) :
    (f <$> x).Yields Q :=
  Yields.bind hx fun a ha => yields_pure (hf a ha)

lemma yields_map {x : Reader ε α} {f : α → β} (hf : ∀ a, Q (f a)) : (f <$> x).Yields Q :=
  yields_bind fun a => yields_pure (hf a)

lemma Yields.iterate {step : β → Reader ε (β × Bool)}
    (hstep : ∀ b, Q b → (step b).Yields fun c => Q c.1) {b : β} (hb : Q b) :
    Yields (iterate step b) Q := by
  intro s
  induction hn : s.length using Nat.strongRecOn generalizing b s with
  | ind n ih =>
    intro c r h
    unfold Reader.iterate at h
    split at h
    · cases h
    · rename_i b' goesOn q hq hs
      have hb' : Q b' := hstep b hb _ _ _ hs
      split at h
      · rename_i hgo
        dsimp only at h
        split at h
        · cases h
        · rename_i d p hp hrest
          cases h
          have hlt := length_lt_of_suffix hq (bne_iff_ne.1 (Bool.and_eq_true_iff.1 hgo).2)
          exact ih _ (hn ▸ hlt) hb' q rfl _ _ hrest
      · cases h
        exact hb'

lemma Yields.collect {step : Reader ε (List α × Bool)} (h : step.Yields fun c => ∀ a ∈ c.1, P a) :
    (collect step).Yields fun l => ∀ a ∈ l, P a := by
  unfold Reader.collect
  refine Yields.bind (P := fun l => ∀ a ∈ l, P a)
    (Yields.iterate (fun l hl => ?_) (List.forall_mem_nil P))
    fun l hl => yields_pure fun a ha => hl a (List.mem_reverse.1 ha)
  refine Yields.bind h fun c hc => yields_pure fun a ha => ?_
  rcases List.mem_append.1 ha with ha | ha
  · exact hc a (List.mem_reverse.1 ha)
  · exact hl a ha

end Text.Reader

open Text.Reader

namespace Json

variable {α β : Type} {P : α → Prop} {I : β → Prop}

lemma yields_mismatch (expected : String) : (mismatch expected : Reader α).Yields P :=
  yields_bind fun _ => yields_fail _

lemma yields_readList {item : Reader α} (h : item.Yields P) :
    (readList item).Yields fun l => ∀ a ∈ l, P a := by
  have hmore : (moreItems item).Yields fun l => ∀ a ∈ l, P a := by
    refine Yields.collect (h.bind fun a ha => yields_bind fun c => ?_)
    have hone : ∀ b ∈ [a], P b := fun b hb => List.mem_singleton.1 hb ▸ ha
    split
    · exact yields_bind fun _ => yields_pure hone
    · split
      · exact yields_bind fun _ => yields_pure hone
      · exact yields_fail _
  refine yields_bind fun c => ?_
  split
  · refine yields_bind fun _ => yields_bind fun d => ?_
    split
    · exact yields_bind fun _ => yields_pure (by simp)
    · exact hmore
  · exact yields_mismatch _

/-- What the members of an object are read into keeps to what each of them keeps to. -/
lemma yields_membersBody {member : β → String → Reader β}
    (h : ∀ b name, I b → (member b name).Yields I) {b : β} (hb : I b) :
    (membersBody member b).Yields I := by
  have hmore : (moreMembers member b).Yields I := by
    refine Yields.iterate (fun b hb => yields_bind fun _ => yields_bind fun name => ?_) hb
    refine (h b name hb).bind fun b hb => yields_bind fun c => ?_
    split
    · exact yields_bind fun _ => yields_pure hb
    · split
      · exact yields_bind fun _ => yields_pure hb
      · exact yields_fail _
  refine yields_bind fun c => ?_
  split
  · exact yields_bind fun _ => yields_pure hb
  · exact hmore

namespace Format

variable {f : Format α β}

lemma yields_member (h : ∀ field ∈ f.fields, ∀ b, I b → (field.read b).Yields I) (b : β)
    (name : String) (hb : I b) : (f.member b name).Yields I := by
  unfold member
  split
  · rename_i field hfield
    split
    · exact yields_fail _
    · exact yields_bind fun _ => h field (List.mem_of_find?_eq_some hfield) b hb
  · split
    · exact yields_bind fun _ => yields_pure hb
    · exact yields_fail _

lemma yields_slots {fields : List (Field β)}
    (h : ∀ field ∈ fields, ∀ b, I b → (field.read b).Yields I) {b : β} (hb : I b)
    (isFirst : Bool) : (slots b isFirst fields).Yields I := by
  induction fields generalizing b isFirst with
  | nil => exact yields_pure hb
  | cons field fields ih =>
    have hfield : ∀ isFirst, (field.read b >>= fun b => slots b isFirst fields).Yields I :=
      fun isFirst => (h field List.mem_cons_self b hb).bind fun b hb =>
        ih (fun x hx => h x (List.mem_cons_of_mem _ hx)) hb isFirst
    unfold slots
    refine yields_bind fun c => ?_
    split
    · exact yields_pure hb
    · split
      · exact yields_bind fun _ => hfield false
      · exact hfield false

/-- A record has what its fields have together, if each field keeps to it. -/
lemma yields_read (hempty : I f.empty)
    (h : ∀ field ∈ f.fields, ∀ b, I b → (field.read b).Yields I)
    (hcomplete : ∀ b a, I b → f.complete b = .ok a → P a) : f.read.Yields P := by
  have hdone : ∀ b (e : String → ReadError), I b → ∀ a, (f.complete b).mapError e = .ok a → P a :=
    fun b e hb a ha => hcomplete b a hb (mapError_eq_ok ha)
  unfold Format.read
  refine yields_bind fun c => ?_
  split
  · refine yields_bind fun _ => (yields_membersBody (yields_member h) hempty).bind fun b hb => ?_
    exact yields_ofExcept (hdone b _ hb)
  · split
    · refine yields_bind fun _ => (yields_slots h hempty true).bind fun b hb => ?_
      refine (yields_ofExcept (hdone b _ hb)).bind fun a ha => ?_
      exact yields_bind fun _ => yields_pure ha
    · exact yields_mismatch _

end Format

end Json

/-! ### Manifests -/

lemma ManifestEntry.toElement_eq_ok_iff {closed : Hierarchy} {e : ManifestEntry} {x : Element} :
    e.toElement closed = .ok x ↔ ∃ t, FieldType.read e.type = .ok t ∧
      x = ⟨e.enclosing, e.name, t.inherit closed.parents, e.modifiers⟩ := by
  constructor
  · intro h
    obtain ⟨t, ht, h⟩ := bind_eq_ok h
    exact ⟨t, ht, (Except.ok.inj h).symm⟩
  · rintro ⟨t, ht, rfl⟩
    unfold toElement
    rw [ht]
    rfl

namespace Manifest

lemma yields_readDeclaring : readDeclaring.Yields DeclaringType.IsProper := by
  refine yields_bind fun s => ?_
  split
  · rename_i d hd
    exact yields_pure (DeclaringType.isProper_of_read hd)
  · exact yields_fail _

lemma yields_readEntry : readEntry.Yields fun e => e.enclosing.IsProper := by
  refine Json.Format.yields_read (I := fun e => ∀ d ∈ e.enclosing, d.IsProper)
    (fun d hd => nomatch hd) ?_ ?_
  · intro field hfield e he
    simp only [entryFormat, List.mem_cons, List.not_mem_nil, or_false] at hfield
    rcases hfield with rfl | rfl | rfl | rfl
    · exact yields_readDeclaring.map fun d hd c hc => Option.mem_some.1 hc ▸ hd
    all_goals exact yields_map fun _ => he
  · intro e entry he hentry
    obtain ⟨enclosing, name, type, modifiers⟩ := e
    change EntryFields.complete _ = _ at hentry
    unfold EntryFields.complete at hentry
    split at hentry
    all_goals cases hentry
    rename_i hd _ _
    exact he _ hd

lemma isProper_of_ofText {text : String} {m : Manifest} (h : ofText text = .ok m) :
    ∀ e ∈ m.entries, e.enclosing.IsProper := by
  have hread : format.read.Yields fun m => ∀ e ∈ m.entries, e.enclosing.IsProper := by
    refine Json.Format.yields_read (I := fun m => ∀ es ∈ m.entries, ∀ e ∈ es, e.enclosing.IsProper)
      (fun es hes => nomatch hes) ?_ ?_
    · intro field hfield m hm
      simp only [format, List.mem_cons, List.not_mem_nil, or_false] at hfield
      rcases hfield with rfl | rfl
      · exact yields_map fun _ => hm
      · refine (Json.yields_readList yields_readEntry).map fun es hes c hc => ?_
        exact Option.mem_some.1 hc ▸ hes
    · intro fields m hm hc
      cases hc
      cases hes : fields.entries with
      | none => simp [Fields.complete, hes]
      | some es => simpa [Fields.complete, hes] using hm es hes
  unfold ofText Json.readText at h
  split at h
  · cases h
  · rename_i hm
    split at h
    · cases h
      exact hread _ _ _ hm
    · cases h

/-- A round has an element for each entry of its manifest. -/
lemma toRound_eq_ok_iff {m : Manifest} {isFinal : Bool} {r : Round} :
    m.toRound isFinal = .ok r ↔ r.isFinal = isFinal ∧
      List.Forall₂ (fun e x => e.toElement m.hierarchy.closed = .ok x) m.entries r.elements := by
  constructor
  · intro h
    obtain ⟨elements, hl, h⟩ := bind_eq_ok h
    cases h
    exact ⟨rfl, mapM_eq_ok_iff.1 hl⟩
  · rintro ⟨rfl, h⟩
    unfold toRound
    dsimp only
    rw [mapM_eq_ok_iff.2 h]
    rfl

lemma toRound_ok {m : Manifest} {isFinal : Bool} {r : Round} (h : m.toRound isFinal = .ok r) :
    r.isFinal = isFinal ∧ ∀ x ∈ r.elements, ∃ e ∈ m.entries, x.enclosing = e.enclosing := by
  obtain ⟨hfinal, helements⟩ := toRound_eq_ok_iff.1 h
  refine ⟨hfinal, fun x hx => ?_⟩
  obtain ⟨e, he, hx⟩ := (mem_iff_of_forall₂ helements).1 hx
  obtain ⟨t, -, rfl⟩ := ManifestEntry.toElement_eq_ok_iff.1 hx
  exact ⟨e, he, rfl⟩

/-- The entries of a manifest are about fields of proper types. -/
lemma isProper_of_load {host : Host} {path : String} {m : Manifest} (h : load host path = .ok m) :
    ∀ e ∈ m.entries, e.enclosing.IsProper := by
  unfold load at h
  split at h
  · cases h
  · obtain ⟨place, -, h⟩ := bind_eq_ok h
    obtain ⟨text, -, h⟩ := bind_eq_ok h
    exact isProper_of_ofText (mapError_eq_ok h)

end Manifest

/-! ### Rounds -/

namespace Round

lemma load_ok {host : Host} {path : String} {isFinal : Bool} {r : Round}
    (h : load host path isFinal = .ok r) :
    r.isFinal = isFinal ∧ ∀ x ∈ r.elements, x.enclosing.IsProper := by
  obtain ⟨m, hm, h⟩ := bind_eq_ok h
  obtain ⟨hfinal, helements⟩ := Manifest.toRound_ok (mapError_eq_ok h)
  refine ⟨hfinal, fun x hx => ?_⟩
  obtain ⟨e, he, hx⟩ := helements x hx
  rw [hx]
  exact Manifest.isProper_of_load hm e he

/-- Rounds that have been loaded stand beside their paths, the last one is final, and their
elements are fields of proper types. -/
lemma loadAll_ok {host : Host} {paths : List String} {rounds : List (String × Round)}
    (h : loadAll host paths = .ok rounds) :
    rounds.map (·.1) = paths ∧ (∀ x ∈ rounds.getLast?, x.2.isFinal = true) ∧
      ∀ x ∈ rounds, ∀ e ∈ x.2.elements, e.enclosing.IsProper := by
  induction paths generalizing rounds with
  | nil =>
    cases h
    exact ⟨rfl, fun x hx => (nomatch hx), List.forall_mem_nil _⟩
  | cons path paths ih =>
    obtain ⟨r, hr, h⟩ := bind_eq_ok h
    obtain ⟨rest, hrest, h⟩ := bind_eq_ok h
    cases h
    obtain ⟨hfinal, hproper⟩ := load_ok hr
    obtain ⟨hpaths, hlast, hothers⟩ := ih hrest
    refine ⟨by rw [List.map_cons, hpaths], ?_, List.forall_mem_cons.2 ⟨hproper, hothers⟩⟩
    cases rest with
    | nil =>
      rw [← hpaths] at hfinal
      intro x hx
      cases hx
      exact hfinal
    | cons y rest =>
      rw [List.getLast?_cons_cons]
      exact hlast

end Round

end SavedState
