import Mathlib.Data.List.Perm.Basic
import SavedState.Proofs.Grouping

/-!
Lists in another order, in which what belongs to one type stays in order.

Such lists are made of the same entries. What is picked, counted or put together for each type is
the same for both; a grouping by type differs in nothing but the places of types that have not
been there before.
-/

namespace SavedState

variable {α β : Type}

/-- At most one match is found in the same way wherever it stands. -/
lemma filter_eq_of_perm {p : α → Bool} {l l' : List α}
    (hl : l.Pairwise fun a b => p a = true → p b = true → False) (h : l.Perm l') :
    l.filter p = l'.filter p := by
  have hnone : (l.filter p).Pairwise fun _ _ => False := List.pairwise_filter.2 hl
  have hperm := h.filter p
  exact hperm.eq_of_pairwise (fun _ _ _ _ hf => hf.elim) hnone (hperm.pairwise hnone id)

/-- What is picked from the outputs comes from the inputs to be picked. -/
lemma filter_flatMap_eq {f : α → List β} {p : α → Bool} {q : β → Bool} {l : List α}
    (h : ∀ a ∈ l, ∀ b ∈ f a, q b = p a) : (l.flatMap f).filter q = (l.filter p).flatMap f := by
  induction l with
  | nil => rfl
  | cons a l ih =>
    rw [List.forall_mem_cons] at h
    rw [List.flatMap_cons, List.filter_append, ih h.2, List.filter_cons]
    cases hp : p a with
    | true =>
      have hall : (f a).filter q = f a := List.filter_eq_self.2 fun b hb => (h.1 b hb).trans hp
      rw [hall, if_pos rfl, List.flatMap_cons]
    | false =>
      have hnone : (f a).filter q = [] := by
        rw [List.filter_eq_nil_iff]
        intro b hb
        rw [h.1 b hb, hp]
        exact Bool.false_ne_true
      rw [hnone, if_neg Bool.false_ne_true, List.nil_append]

/-! ### Rearranged lists -/

/-- The same entries in another order, in which those of each type keep theirs. -/
def Rearranged (type : α → DeclaringType) (l l' : List α) : Prop :=
  ∀ d, (l.filter fun a => (type a).same d) = l'.filter fun a => (type a).same d

namespace Rearranged

variable {type : α → DeclaringType} {type' : β → DeclaringType} {l l' m m' : List α}

lemma perm (h : Rearranged type l l') : l.Perm l' := by
  classical
  rw [List.perm_iff_count]
  intro a
  have hcount : ∀ m : List α, (m.filter fun b => (type b).same (type a)).count a = m.count a :=
    fun m => List.count_filter (DeclaringType.same_refl _)
  rw [← hcount l, h (type a), hcount l']

lemma append (h : Rearranged type l l') (h' : Rearranged type m m') :
    Rearranged type (l ++ m) (l' ++ m') := fun d => by
  rw [List.filter_append, List.filter_append, h d, h' d]

lemma flatMap (h : Rearranged type l l') {f : α → List β}
    (hf : ∀ a, ∀ b ∈ f a, type' b = type a) : Rearranged type' (l.flatMap f) (l'.flatMap f) := by
  intro d
  have hpick : ∀ a, ∀ b ∈ f a, (type' b).same d = (type a).same d := fun a b hb => by rw [hf a b hb]
  rw [filter_flatMap_eq fun a _ => hpick a, filter_flatMap_eq fun a _ => hpick a, h d]

lemma map (h : Rearranged type l l') {f : α → β} (hf : ∀ a, type' (f a) = type a) :
    Rearranged type' (l.map f) (l'.map f) := by
  rw [List.map_eq_flatMap, List.map_eq_flatMap]
  refine h.flatMap fun a b hb => ?_
  rw [List.mem_singleton.1 hb, hf]

lemma filterMap (h : Rearranged type l l') {f : α → Option β}
    (hf : ∀ a b, f a = some b → type' b = type a) :
    Rearranged type' (l.filterMap f) (l'.filterMap f) := by
  rw [List.filterMap_eq_flatMap_toList, List.filterMap_eq_flatMap_toList]
  exact h.flatMap fun a b hb => hf a b (Option.mem_toList.1 hb)

lemma filter (h : Rearranged type l l') (p : α → Bool) :
    Rearranged type (l.filter p) (l'.filter p) := fun d => by
  rw [List.filter_comm, h d, List.filter_comm]

/-- What is found first of a type is found first again. -/
lemma find?_eq (h : Rearranged type l l') (d : DeclaringType) :
    (l.find? fun a => (type a).same d) = l'.find? fun a => (type a).same d := by
  rw [← List.head?_filter, ← List.head?_filter, h d]

/-- Where each type stands once, any order will do. -/
lemma of_perm (hl : l.Pairwise fun a b => (type a).same (type b) = false) (h : l.Perm l') :
    Rearranged type l l' := by
  refine fun d => filter_eq_of_perm (hl.imp fun {a b} hab ha hb => ?_) h
  have hsame := DeclaringType.same_trans ha (DeclaringType.same_symm hb)
  exact Bool.false_ne_true (hab.symm.trans hsame)

end Rearranged

/-! ### Lists with something new behind -/

/-- Two lists that are the same but for the order of what is new and stands behind. -/
def AlikeButNew (isNew : α → Prop) (l l' : List α) : Prop :=
  ∃ front rest rest', l = front ++ rest ∧ l' = front ++ rest' ∧ rest.Perm rest' ∧
    ∀ a ∈ rest, isNew a

namespace AlikeButNew

variable {isNew : α → Prop} {isNew' : β → Prop} {l l' : List α}

lemma refl (l : List α) : AlikeButNew isNew l l :=
  ⟨l, [], [], (List.append_nil l).symm, (List.append_nil l).symm, .nil,
    fun _ ha => absurd ha List.not_mem_nil⟩

lemma perm (h : AlikeButNew isNew l l') : l.Perm l' := by
  obtain ⟨front, rest, rest', rfl, rfl, hperm, -⟩ := h
  exact hperm.append_left front

lemma flatMap (h : AlikeButNew isNew l l') (f : α → List β)
    (hf : ∀ a ∈ l, isNew a → ∀ b ∈ f a, isNew' b) :
    AlikeButNew isNew' (l.flatMap f) (l'.flatMap f) := by
  obtain ⟨front, rest, rest', rfl, rfl, hperm, hnew⟩ := h
  refine ⟨front.flatMap f, rest.flatMap f, rest'.flatMap f, List.flatMap_append,
    List.flatMap_append, hperm.flatMap_right f, fun b hb => ?_⟩
  obtain ⟨a, ha, hb⟩ := List.mem_flatMap.1 hb
  exact hf a (List.mem_append_right _ ha) (hnew a ha) b hb

lemma map (h : AlikeButNew isNew l l') (f : α → β) (hf : ∀ a ∈ l, isNew a → isNew' (f a)) :
    AlikeButNew isNew' (l.map f) (l'.map f) := by
  rw [List.map_eq_flatMap, List.map_eq_flatMap]
  refine h.flatMap _ fun a ha hnew b hb => ?_
  rw [List.mem_singleton.1 hb]
  exact hf a ha hnew

lemma append_left (h : AlikeButNew isNew l l') (k : List α) :
    AlikeButNew isNew (k ++ l) (k ++ l') := by
  obtain ⟨front, rest, rest', rfl, rfl, hperm, hnew⟩ := h
  exact ⟨k ++ front, rest, rest', (List.append_assoc ..).symm, (List.append_assoc ..).symm, hperm,
    hnew⟩

end AlikeButNew

/-! ### Groupings of rearranged lists -/

/-- A type is listed as it is spelled first. -/
lemma mem_firstSpellings_iff {ds : List DeclaringType} {d : DeclaringType} :
    d ∈ firstSpellings ds ↔ ds.find? (·.same d) = some d := by
  induction ds using List.reverseRecOn with
  | nil => exact iff_of_false List.not_mem_nil nofun
  | append_singleton ds x ih =>
    rw [firstSpellings_concat, List.find?_append]
    cases hf : ds.find? (·.same d) with
    | some y =>
      have hy := List.mem_of_find?_eq_some hf
      have hyd : y.same d = true := by simpa using List.find?_some hf
      rw [hf] at ih
      rw [Option.some_or, ← ih]
      split
      · rfl
      · rename_i hx
        refine List.mem_append.trans (or_iff_left fun hd => ?_)
        rw [List.mem_singleton.1 hd] at hyd
        exact hx (List.any_eq_true.2 ⟨y, hy, hyd⟩)
    | none =>
      have hno : ∀ y ∈ ds, ¬y.same d = true := List.find?_eq_none.1 hf
      rw [hf] at ih
      have hd : d ∉ firstSpellings ds := fun h => nomatch ih.1 h
      rw [Option.none_or, List.find?_singleton]
      split
      · rename_i hx
        obtain ⟨y, hy, hyx⟩ := List.any_eq_true.1 hx
        have hxd : ¬x.same d = true := fun h => hno y hy (DeclaringType.same_trans hyx h)
        rw [if_neg hxd]
        exact iff_of_false hd nofun
      · rw [List.mem_append, List.mem_singleton, or_iff_right hd]
        constructor
        · rintro rfl
          rw [if_pos (DeclaringType.same_refl d)]
        · intro h
          split at h
          · exact (Option.some.inj h).symm
          · cases h

/-- The types of a longer list are those of its beginning, and behind them the new ones. -/
lemma firstSpellings_append (ds ts : List DeclaringType) :
    firstSpellings (ds ++ ts) =
      firstSpellings ds ++ firstSpellings (ts.filter fun t => !ds.any (·.same t)) := by
  induction ts using List.reverseRecOn with
  | nil =>
    rw [List.append_nil]
    exact (List.append_nil _).symm
  | append_singleton ts t ih =>
    rw [← List.append_assoc, firstSpellings_concat, ih, List.any_append, List.filter_append]
    cases hold : ds.any (·.same t) with
    | true =>
      have hnil : [t].filter (fun t => !ds.any (·.same t)) = [] := by simp [hold]
      rw [hnil, List.append_nil, Bool.true_or, if_pos rfl]
    | false =>
      have hone : [t].filter (fun t => !ds.any (·.same t)) = [t] := by simp [hold]
      -- what is the same as `t` is as new as `t`
      have hany : (ts.filter fun t => !ds.any (·.same t)).any (·.same t) = ts.any (·.same t) := by
        rw [List.any_filter, Bool.eq_iff_iff, List.any_eq_true, List.any_eq_true]
        refine exists_congr fun y => and_congr_right fun _ => ?_
        rw [Bool.and_eq_true, and_iff_right_of_imp]
        intro hy
        simpa [DeclaringType.same_congr_right hy] using hold
      rw [hone, firstSpellings_concat, hany, Bool.false_or]
      split
      · rfl
      · rw [List.append_assoc]

lemma recordsOf_append_eq {l m m' : List (DeclaringType × FieldRecord)}
    (h : Rearranged Prod.fst m m') (d : DeclaringType) :
    recordsOf (l ++ m) d = recordsOf (l ++ m') d := by
  unfold recordsOf
  rw [List.filter_append, List.filter_append, h d]

namespace Store

variable {s s' : Store} {l m m' : List (DeclaringType × FieldRecord)}

lemma nodup_entries (s : Store) : s.entries.Nodup :=
  s.distinct.imp fun hab he => by
    rw [he, DeclaringType.same_refl] at hab
    cases hab

lemma mem_entries_iff (hs : s.contents = grouping l) {d : DeclaringType} {fields : FieldSet} :
    (d, fields) ∈ s.entries ↔
      (l.map (·.1)).find? (·.same d) = some d ∧ fields.toList = recordsOf l d := by
  have hcontents : (d, fields) ∈ s.entries ↔ (d, fields.toList) ∈ s.contents :=
    (List.mem_map_of_injective entry_injective).symm
  rw [hcontents, hs, grouping, List.mem_map, ← mem_firstSpellings_iff]
  constructor
  · rintro ⟨c, hc, he⟩
    obtain ⟨rfl, hfields⟩ := Prod.mk.inj he
    exact ⟨hc, hfields.symm⟩
  · rintro ⟨hd, hfields⟩
    exact ⟨d, hd, by rw [hfields]⟩

/-- How many types the records `l` are of. -/
def typeCount (l : List (DeclaringType × FieldRecord)) : Nat :=
  (firstSpellings (l.map (·.1))).length

lemma take_contents (hs : s.contents = grouping (l ++ m)) :
    s.contents.take (typeCount l) =
      (firstSpellings (l.map (·.1))).map fun d => (d, recordsOf (l ++ m) d) := by
  rw [hs, grouping, List.map_append, firstSpellings_append, List.map_append]
  exact List.take_left' (List.length_map _)

lemma drop_types (hs : s.contents = grouping (l ++ m)) :
    (s.entries.drop (typeCount l)).map (·.1) =
      firstSpellings ((m.map (·.1)).filter fun t => !(l.map (·.1)).any (·.same t)) := by
  rw [List.map_drop, types_of_contents hs, List.map_append, firstSpellings_append]
  exact List.drop_left' rfl

/-- **Rearranged records make the same store**, but for the order of the types that are new. -/
lemma entries_alikeButNew (hs : s.contents = grouping (l ++ m))
    (hs' : s'.contents = grouping (l ++ m')) (h : Rearranged Prod.fst m m') :
    AlikeButNew (fun e => (l.map (·.1)).any (·.same e.1) = false) s.entries s'.entries := by
  have htypes : Rearranged id (m.map (·.1)) (m'.map (·.1)) := h.map fun _ => rfl
  have hperm : s.entries.Perm s'.entries := by
    rw [List.perm_ext_iff_of_nodup s.nodup_entries s'.nodup_entries]
    rintro ⟨d, fields⟩
    have hfind : (m.map (·.1)).find? (·.same d) = (m'.map (·.1)).find? (·.same d) :=
      htypes.find?_eq d
    rw [mem_entries_iff hs, mem_entries_iff hs', recordsOf_append_eq h, List.map_append,
      List.map_append, List.find?_append, List.find?_append, hfind]
  have hfront : s.entries.take (typeCount l) = s'.entries.take (typeCount l) := by
    refine List.map_injective_iff.2 entry_injective ?_
    rw [List.map_take, List.map_take]
    refine (take_contents hs).trans (Eq.trans ?_ (take_contents hs').symm)
    exact List.map_congr_left fun d _ => by rw [recordsOf_append_eq h]
  refine ⟨s.entries.take (typeCount l), s.entries.drop (typeCount l),
    s'.entries.drop (typeCount l), (List.take_append_drop ..).symm, ?_, ?_, fun e he => ?_⟩
  · rw [hfront, List.take_append_drop]
  · rw [← List.perm_append_left_iff (s.entries.take (typeCount l)), List.take_append_drop, hfront,
      List.take_append_drop]
    exact hperm
  · have hm : e.1 ∈ (s.entries.drop (typeCount l)).map (·.1) := List.mem_map_of_mem he
    rw [drop_types hs] at hm
    simpa using (List.mem_filter.1 (mem_firstSpellings hm)).2

end Store

end SavedState
