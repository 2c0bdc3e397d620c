import Mathlib.Tactic.Common
import SavedState.Configuration
import SavedState.Proofs.Reading
import SavedState.Proofs.Tables

/-!
Layers key by key. What a key has after one layer has been laid over another depends on what the
two have under that key, and on nothing else.
-/

namespace SavedState

namespace Layer

lemma lookup_put (key k : String) (value : Value) (t : Table) :
    (put key value t).lookup k = if k = key then some value else t.lookup k :=
  SavedState.Table.lookup_set (put key value) rfl (fun _ _ => rfl) t k

/-- A value onto what a key had before. -/
def onto (value : Value) : Option Value → Value
  | none => value
  | some hidden => cover hidden value

lemma coverAll_cons (below : Table) (key : String) (value : Value) (above : Table) :
    coverAll below ((key, value) :: above) =
      coverAll (put key (onto value (below.lookup key)) below) above := by
  rw [coverAll]
  cases below.lookup key <;> rfl

lemma coverAll_append (below above more : Table) :
    coverAll below (above ++ more) = coverAll (coverAll below above) more := by
  induction above generalizing below with
  | nil => simp [coverAll]
  | cons e above ih => rw [List.cons_append, coverAll_cons, coverAll_cons, ih]

/-- A key is resolved by what there is under it alone. -/
lemma lookup_coverAll_congr {s t : Table} {k : String} (h : s.lookup k = t.lookup k)
    (above : Table) : (coverAll s above).lookup k = (coverAll t above).lookup k := by
  induction above generalizing s t with
  | nil => simpa [coverAll] using h
  | cons e above ih =>
    rw [coverAll_cons, coverAll_cons]
    refine ih ?_
    rw [lookup_put, lookup_put]
    split
    · rename_i hk
      rw [← hk, h]
    · exact h

lemma lookup_coverAll_of_not_mem {above : Table} {k : String} (h : k ∉ above.map (·.1))
    (below : Table) : (coverAll below above).lookup k = below.lookup k := by
  induction above generalizing below with
  | nil => simp [coverAll]
  | cons e above ih =>
    rw [List.map_cons, List.mem_cons, not_or] at h
    rw [coverAll_cons, ih h.2, lookup_put, if_neg h.1]

end Layer

namespace Configuration

open Layer

/-- What the flag of a dry run adds to what the command line gives. -/
lemma lookup_overrides_dryRun (a : Arguments) (below : Table) (k : String) :
    (coverAll below (overrides { a with dryRun := true })).lookup k =
      if k = "dry_run" then some (.flag true)
      else (coverAll below (overrides { a with dryRun := false })).lookup k := by
  let front : Table := (a.outDir.map fun d => ("out_dir", Value.text d)).toList
  let settings : Table := (a.suffix.map fun s => ("suffix", Value.text s)).toList ++
    (a.reemit.map fun p => ("reemit", Value.text p.word)).toList
  let rest : Table := if settings.isEmpty then [] else [("processor", .table settings)]
  have hwith : overrides { a with dryRun := true } =
      front ++ [("dry_run", .flag true)] ++ rest := rfl
  have hwithout : overrides { a with dryRun := false } = front ++ [] ++ rest := rfl
  rw [hwith, hwithout, List.append_nil, coverAll_append, coverAll_append, coverAll_append,
    coverAll_cons]
  have hflag : ∀ hidden, onto (.flag true) hidden = .flag true := by
    rintro (_ | _ | _ | _ | _ | _) <;> rfl
  rw [hflag]
  change (coverAll (put _ _ _) rest).lookup k = _
  split
  · rename_i hk
    have hrest : k ∉ rest.map (·.1) := by
      unfold rest
      split <;> simp [hk]
    rw [lookup_coverAll_of_not_mem hrest, lookup_put, if_pos hk]
  · rename_i hk
    refine lookup_coverAll_congr ?_ rest
    rw [lookup_put, if_neg hk]

/-- The other keys are read as they are, whatever becomes of the flag. -/
lemma ofLayer?_of_flag {s t : Table} {c : Configuration} (h : ofLayer? s = some c)
    (hflag : t.lookup "dry_run" = some (.flag true))
    (hother : ∀ k, k ≠ "dry_run" → t.lookup k = s.lookup k) :
    ofLayer? t = some { c with isDryRun := true } := by
  unfold ofLayer? at h ⊢
  rw [hother "out_dir" (by decide), hother "processor" (by decide), hflag]
  simp only [Option.bind_eq_bind, Option.bind_eq_some_iff] at h ⊢
  obtain ⟨outDir, houtDir, isDryRun, -, processor, hprocessor, hc⟩ := h
  cases hc
  exact ⟨outDir, houtDir, true, rfl, processor, hprocessor, rfl⟩

/-- Which configuration is loaded. -/
lemma load_eq_ok {host : Host} {a : Arguments} {c : Configuration} : load host a = .ok c ↔
    ∃ file layer, file? host a = .ok file ∧ fileLayer? file = some layer ∧
      ofLayer? (coverAll (coverAll (coverAll default.toLayer layer)
        (Environment.toLayer host.environment)) (overrides a)) = some c := by
  constructor
  · intro h
    obtain ⟨file, hfile, h⟩ := bind_eq_ok h
    dsimp only at h
    split at h
    · cases h
    · rename_i layer hlayer
      split at h
      · rename_i hc
        cases h
        exact ⟨file, layer, hfile, hlayer, hc⟩
      · cases h
  · rintro ⟨file, layer, hfile, hlayer, hc⟩
    simp only [load, hfile, hlayer, List.foldl_cons, List.foldl_nil, hc, bind, Except.bind]
    rfl

/-- **The flag of a dry run changes nothing but that.** -/
lemma load_dryRun {host : Host} {a : Arguments} {c : Configuration}
    (h : load host { a with dryRun := false } = .ok c) :
    load host { a with dryRun := true } = .ok { c with isDryRun := true } := by
  obtain ⟨file, layer, hfile, hlayer, hc⟩ := load_eq_ok.1 h
  refine load_eq_ok.2 ⟨file, layer, hfile, hlayer, ofLayer?_of_flag hc ?_ fun k hk => ?_⟩
  · rw [lookup_overrides_dryRun, if_pos rfl]
  · rw [lookup_overrides_dryRun, if_neg hk]

end Configuration

end SavedState
