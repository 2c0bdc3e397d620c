import Mathlib.Data.List.Nodup
import SavedState.Proofs.Layers

/-!
Layers at the end of a path. What several layers come to at one place is settled by the highest of
them that says something there, whatever they say elsewhere.
-/

namespace SavedState.Layer

lemma keys_put_subset (key : String) (value : Value) (t : Table) {k : String}
    (h : k ∈ (put key value t).map (·.1)) : k = key ∨ k ∈ t.map (·.1) := by
  induction t with
  | nil => exact .inl (List.mem_singleton.1 h)
  | cons e t ih =>
    rw [put] at h
    split at h
    · rcases List.mem_cons.1 h with h | h
      · exact .inl h
      · exact .inr (List.mem_cons_of_mem _ h)
    · rcases List.mem_cons.1 h with h | h
      · exact .inr (h ▸ List.mem_cons_self)
      · exact (ih h).imp_right (List.mem_cons_of_mem _)

lemma nodup_put {t : Table} (h : (t.map (·.1)).Nodup) (key : String) (value : Value) :
    ((put key value t).map (·.1)).Nodup := by
  induction t with
  | nil => exact List.nodup_singleton key
  | cons e t ih =>
    rw [List.map_cons, List.nodup_cons] at h
    rw [put]
    split
    · rename_i he
      rw [List.map_cons, List.nodup_cons, ← he]
      exact h
    · rename_i he
      rw [List.map_cons, List.nodup_cons]
      refine ⟨fun hmem => ?_, ih h.2⟩
      rcases keys_put_subset key value t hmem with hk | hk
      · exact he hk
      · exact h.1 hk

lemma nodup_coverAll {below : Table} (h : (below.map (·.1)).Nodup) (above : Table) :
    ((coverAll below above).map (·.1)).Nodup := by
  induction above generalizing below with
  | nil => simpa [coverAll] using h
  | cons e above ih =>
    rw [coverAll_cons]
    exact ih (nodup_put h _ _)

/-- A layer without repeated keys goes onto what each key had before. -/
lemma lookup_coverAll {above : Table} (h : (above.map (·.1)).Nodup) (below : Table) (k : String) :
    (coverAll below above).lookup k =
      match above.lookup k with
      | none => below.lookup k
      | some v => some (onto v (below.lookup k)) := by
  induction above generalizing below with
  | nil => simp [coverAll]
  | cons e above ih =>
    rw [List.map_cons, List.nodup_cons] at h
    rw [coverAll_cons, SavedState.Table.lookup_cons]
    by_cases hk : k = e.1
    · rw [if_pos hk, lookup_coverAll_of_not_mem (hk ▸ h.1), lookup_put, if_pos hk, hk]
    · rw [if_neg hk, ih h.2, lookup_put, if_neg hk]

namespace Value

/-- The value at the end of a path of keys. -/
def at? : List String → Value → Option Value
  | [], v => some v
  | key :: path, .table t => (t.lookup key).bind (at? path)
  | _ :: _, _ => none

/-- Whether nothing but tables without repeated keys stands on the way along a path. -/
def Passes : List String → Value → Prop
  | [], _ => True
  | key :: path, v => ∃ t, v = .table t ∧ (t.map (·.1)).Nodup ∧
      ∀ w, t.lookup key = some w → w.Passes path

/-- Whether two values are the same to a setting, for which all tables are alike. -/
def Alike (v w : Value) : Prop := v = w ∨ (∃ s, v = .table s) ∧ ∃ t, w = .table t

/-- Whether a layer says so much of the setting at the end of a path. -/
structure Offers (layer : Value) (path : List String) (said : Option Value) : Prop where
  passes : layer.Passes path
  alike : Option.Rel Alike (layer.at? path) said

lemma Alike.refl (v : Value) : v.Alike v := .inl rfl

lemma Alike.trans {u v w : Value} (huv : u.Alike v) (hvw : v.Alike w) : u.Alike w := by
  rcases huv with rfl | ⟨hu, hv⟩
  · exact hvw
  · rcases hvw with rfl | ⟨-, hw⟩
    · exact .inr ⟨hu, hv⟩
    · exact .inr ⟨hu, hw⟩

/-- To a reader that takes no tables, values that are alike are the same. -/
lemma Alike.read_eq {v w : Value} (h : v.Alike w) {α : Type} {read : Value → Option α}
    (hread : ∀ t, read (.table t) = none) : read v = read w := by
  rcases h with rfl | ⟨⟨s, rfl⟩, t, rfl⟩
  · rfl
  · rw [hread, hread]

lemma onto_alike (v : Value) (hidden : Option Value) : (onto v hidden).Alike v := by
  rcases hidden with _ | hidden
  · exact .refl v
  · cases v with
    | table t =>
      cases hidden
      case table s => exact .inr ⟨⟨coverAll s t, by rw [onto, cover]⟩, t, rfl⟩
      all_goals exact .inl (by simp [onto, cover])
    | _ => exact .inl (by cases hidden <;> simp [onto, cover])

lemma offers_self {v : Value} {path : List String} (h : v.Passes path) :
    v.Offers path (v.at? path) := by
  refine ⟨h, ?_⟩
  cases v.at? path with
  | none => exact .none
  | some w => exact .some (.refl w)

variable {below above : Value} {path : List String}

lemma Passes.cover (hbelow : below.Passes path) (habove : above.Passes path) :
    (cover below above).Passes path := by
  induction path generalizing below above with
  | nil => trivial
  | cons key path ih =>
    obtain ⟨s, rfl, hs, hbelow⟩ := hbelow
    obtain ⟨t, rfl, ht, habove⟩ := habove
    rw [Layer.cover]
    refine ⟨coverAll s t, rfl, nodup_coverAll hs t, fun w hw => ?_⟩
    rw [lookup_coverAll ht] at hw
    cases hv : t.lookup key with
    | none =>
      rw [hv] at hw
      exact hbelow w hw
    | some v =>
      rw [hv] at hw
      cases hw
      cases hh : s.lookup key with
      | none => exact habove v hv
      | some hidden => exact ih (hbelow hidden hh) (habove v hv)

/-- At the end of a path, one layer over another is what the two say there. -/
lemma at?_cover (hbelow : below.Passes path) (habove : above.Passes path) :
    (cover below above).at? path =
      match above.at? path with
      | none => below.at? path
      | some v => some (onto v (below.at? path)) := by
  induction path generalizing below above with
  | nil => rfl
  | cons key path ih =>
    obtain ⟨s, rfl, -, hbelow⟩ := hbelow
    obtain ⟨t, rfl, ht, habove⟩ := habove
    rw [Layer.cover, at?, at?, at?, lookup_coverAll ht]
    cases hv : t.lookup key with
    | none => rfl
    | some v =>
      cases hh : s.lookup key with
      | none =>
        change v.at? path = match v.at? path with
          | none => none
          | some v => some v
        cases v.at? path <;> rfl
      | some hidden => exact ih (hbelow hidden hh) (habove v hv)

/-- **The higher layer wins.** What it leaves unsaid is what the lower one says. -/
lemma Offers.cover {u v : Option Value} (hbelow : below.Offers path u)
    (habove : above.Offers path v) : (cover below above).Offers path (v.or u) := by
  refine ⟨hbelow.passes.cover habove.passes, ?_⟩
  rw [at?_cover hbelow.passes habove.passes]
  cases hv : above.at? path with
  | none =>
    have hsaid := habove.alike
    rw [hv] at hsaid
    cases hsaid
    exact hbelow.alike
  | some w =>
    have hsaid := habove.alike
    rw [hv] at hsaid
    cases hsaid with
    | some hw => exact .some ((onto_alike w _).trans hw)

/-- What a value under a path says of another path, which must not lead through it. -/
lemma nest_offers (v : Value) {q : List String} (h : q <+: path → q = path) :
    (nest v q).Offers path
      (if path <+: q then some (nest v (q.drop path.length)) else none) := by
  induction path generalizing q with
  | nil =>
    rw [if_pos List.nil_prefix]
    exact ⟨trivial, .some (.refl _)⟩
  | cons key path ih =>
    cases q with
    | nil => exact absurd (h List.nil_prefix) (by simp)
    | cons k q =>
      rw [nest]
      have hlookup : List.lookup key [(k, nest v q)] =
          if key = k then some (nest v q) else none := SavedState.Table.lookup_cons _ _ _
      by_cases hk : key = k
      · subst hk
        rw [if_pos rfl] at hlookup
        have hinner := ih (q := q) fun hq => (List.cons.inj (h (by simpa using hq))).2
        refine ⟨⟨_, rfl, List.nodup_singleton key, fun w hw => ?_⟩, ?_⟩
        · rw [hlookup] at hw
          cases hw
          exact hinner.passes
        · rw [at?, hlookup]
          simpa using hinner.alike
      · rw [if_neg hk] at hlookup
        refine ⟨⟨_, rfl, List.nodup_singleton k, fun w hw => ?_⟩, ?_⟩
        · rw [hlookup] at hw
          cases hw
        · rw [at?, hlookup, if_neg fun hp => hk (List.cons_prefix_cons.1 hp).1]
          exact .none

end Value

end SavedState.Layer
