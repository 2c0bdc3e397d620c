import Mathlib.Data.List.Nodup
import SavedState.Proofs.Reading
import SavedState.Toml.Document

/-!
The keys of TOML documents. However tables are opened, reopened and added to, none of them comes to
have a key twice, and neither have the tables of the layer that a document stands for.
-/

namespace SavedState.Toml

open Text.Reader

/-- Whether a node is no table, or a table without repeated keys and with nodes like this. -/
inductive Node.Orderly : Node → Prop
  | table (kind : Kind) {es : List (String × Node)} (keys : (es.map (·.1)).Nodup)
    (nodes : ∀ e ∈ es, e.2.Orderly) : Orderly (.table kind es)
  | other {n : Node} (h : ∀ kind es, n ≠ .table kind es) : Orderly n

namespace Entries

structure Orderly (es : Entries) : Prop where
  keys : (es.map (·.1)).Nodup
  nodes : ∀ e ∈ es, e.2.Orderly

lemma orderly_nil : Orderly [] := ⟨List.nodup_nil, List.forall_mem_nil _⟩

variable {es es' : Entries} {key : String} {n : Node}

lemma Orderly.lookup (h : es.Orderly) (hn : es.lookup key = some n) : n.Orderly := by
  obtain ⟨front, back, rfl, -⟩ := List.lookup_eq_some_iff.1 hn
  exact h.nodes (key, n) (by simp)

lemma Orderly.of_table {kind : Kind} (h : (Node.table kind es).Orderly) : es.Orderly := by
  cases h with
  | table _ keys nodes => exact ⟨keys, nodes⟩
  | other h => exact absurd rfl (h kind es)

lemma Orderly.append (h : es.Orderly) (hkey : es.lookup key = none) (hn : n.Orderly) :
    Orderly (es ++ [(key, n)]) := by
  refine ⟨?_, fun e he => ?_⟩
  · rw [List.map_append, List.nodup_append]
    refine ⟨h.keys, List.nodup_singleton key, fun k hk k' hk' hkk => ?_⟩
    obtain ⟨e, he, rfl⟩ := List.mem_map.1 hk
    have hne := List.lookup_eq_none_iff.1 hkey e he
    simp_all
  · rcases List.mem_append.1 he with he | he
    · exact h.nodes e he
    · rw [List.mem_singleton.1 he]
      exact hn

lemma Orderly.set (h : es.Orderly) (hn : n.Orderly) : Orderly (Entries.set key n es) := by
  have hkeys : (Entries.set key n es).map (·.1) = es.map (·.1) := by
    unfold Entries.set
    rw [List.map_map]
    refine List.map_congr_left fun e _ => ?_
    dsimp only [Function.comp]
    split
    · rename_i he
      exact he.symm
    · rfl
  refine ⟨hkeys ▸ h.keys, fun e he => ?_⟩
  obtain ⟨x, hx, rfl⟩ := List.mem_map.1 he
  split
  · exact hn
  · exact h.nodes x hx

/-- What is done to a table that is reached through others leaves them orderly. -/
lemma Orderly.within {byKeys : Bool} {change : Kind → Entries → Option Entries} {kind : Kind}
    {path : List String} (h : es.Orderly)
    (hchange : ∀ kind es es', Orderly es → change kind es = some es' → Orderly es')
    (hw : Entries.within byKeys change kind path es = some es') : es'.Orderly := by
  induction path generalizing kind es es' with
  | nil => exact hchange kind es es' h hw
  | cons key path ih =>
    rw [Entries.within] at hw
    split at hw
    · rename_i hkey
      obtain ⟨inner, hinner, hes⟩ := Option.bind_eq_some_iff.1 hw
      cases hes
      have hnew := ih orderly_nil hinner
      exact h.append hkey (.table _ hnew.keys hnew.nodes)
    · rename_i kind inner hkey
      split at hw
      · cases hw
      · obtain ⟨inner', hinner, hes⟩ := Option.bind_eq_some_iff.1 hw
        cases hes
        have hnew := ih (Orderly.of_table (h.lookup hkey)) hinner
        exact h.set (.table _ hnew.keys hnew.nodes)
    · obtain ⟨last, -, hes⟩ := Option.bind_eq_some_iff.1 hw
      obtain ⟨last', -, hes⟩ := Option.bind_eq_some_iff.1 hes
      cases hes
      exact h.set (.other (by simp))
    · cases hw

lemma Orderly.putPair {path : List String} (h : es.Orderly) (hn : n.Orderly)
    (hput : putPair path key n es = some es') : es'.Orderly := by
  refine h.within (fun kind es es' hes hchange => ?_) hput
  split at hchange
  · cases hchange
  · split at hchange
    · cases hchange
    · rename_i hkey
      cases hchange
      exact hes.append (Option.not_isSome_iff_eq_none.1 hkey) hn

lemma Orderly.openTable {path : List String} (h : es.Orderly)
    (hopen : openTable path key es = some es') : es'.Orderly := by
  refine h.within (fun kind es es' hes hchange => ?_) hopen
  split at hchange
  · rename_i hkey
    cases hchange
    exact hes.append hkey (.table _ List.nodup_nil (List.forall_mem_nil _))
  · rename_i hkey
    cases hchange
    have hinner := Orderly.of_table (hes.lookup hkey)
    exact hes.set (.table _ hinner.keys hinner.nodes)
  · cases hchange

lemma Orderly.openTables {path : List String} (h : es.Orderly)
    (hopen : openTables path key es = some es') : es'.Orderly := by
  refine h.within (fun kind es es' hes hchange => ?_) hopen
  split at hchange
  · rename_i hkey
    cases hchange
    exact hes.append hkey (.other (by simp))
  · cases hchange
    exact hes.set (.other (by simp))
  · cases hchange

end Entries

/-! ### Reading -/

lemma yields_ofOption {α : Type} {P : α → Prop} {x : Option α} (h : ∀ a, x = some a → P a) :
    (ofOption x).Yields P := by
  cases x with
  | none => exact yields_fail ()
  | some a => exact yields_pure (h a rfl)

lemma orderly_of_ofWord? {word : List Char} {n : Node} (h : ofWord? word = some n) :
    n.Orderly := by
  unfold ofWord? at h
  split_ifs at h
  all_goals
    cases h
    exact .other (by simp)

lemma yields_readWord : readWord.Yields Node.Orderly := by
  refine yields_bind fun word => yields_bind fun rest => ?_
  dsimp only
  split
  all_goals
    refine yields_bind fun more => ?_
    split
    · rename_i n hn
      exact yields_pure (orderly_of_ofWord? hn)
    · exact yields_fail _

lemma yields_readPairs {value : Reader Node} (h : value.Yields Node.Orderly) :
    (readPairs value).Yields Entries.Orderly := by
  refine yields_bind fun _ => yields_bind fun c => ?_
  cases c
  case true => exact yields_pure Entries.orderly_nil
  case false =>
    refine Yields.iterate (fun es hes => ?_) Entries.orderly_nil
    refine yields_bind fun k => yields_bind fun _ => yields_bind fun _ => ?_
    refine h.bind fun n hn => ?_
    refine (yields_ofOption fun es' hes' => hes.putPair hn hes').bind fun es' hes' => ?_
    refine yields_bind fun _ => yields_bind fun c => ?_
    split
    · exact yields_pure hes'
    · exact yields_bind fun _ => yields_pure hes'

lemma yields_readValue (depth : Nat) : (readValue depth).Yields Node.Orderly := by
  have hleaf : ∀ n : Node, (∀ kind es, n ≠ .table kind es) → n.Orderly := fun n hn => .other hn
  induction depth with
  | zero =>
    unfold readValue
    refine yields_bind fun c => ?_
    split
    · exact yields_bind fun s => yields_pure (hleaf _ (by simp))
    · refine yields_bind fun c => ?_
      split
      · exact yields_bind fun s => yields_pure (hleaf _ (by simp))
      · exact yields_readWord
  | succ depth ih =>
    unfold readValue
    refine yields_bind fun c => ?_
    split
    · exact yields_bind fun s => yields_pure (hleaf _ (by simp))
    · refine yields_bind fun c => ?_
      split
      · exact yields_bind fun s => yields_pure (hleaf _ (by simp))
      · refine yields_bind fun c => ?_
        split
        · exact yields_bind fun items => yields_pure (hleaf _ (by simp))
        · refine yields_bind fun c => ?_
          split
          · exact (yields_readPairs ih).bind fun es hes => yields_pure (.table _ hes.keys hes.nodes)
          · exact yields_readWord

namespace Draft

lemma yields_readHeader {d : Draft} (h : d.entries.Orderly) :
    d.readHeader.Yields fun d => d.entries.Orderly := by
  refine yields_bind fun _ => yields_bind fun c => ?_
  split
  · refine yields_bind fun k => yields_bind fun _ => yields_bind fun _ => yields_bind fun _ => ?_
    exact (yields_ofOption fun es hes => h.openTables hes).bind fun es hes => yields_pure hes
  · refine yields_bind fun k => yields_bind fun _ => yields_bind fun _ => ?_
    exact (yields_ofOption fun es hes => h.openTable hes).bind fun es hes => yields_pure hes

lemma yields_readPair {d : Draft} (h : d.entries.Orderly) :
    d.readPair.Yields fun d => d.entries.Orderly := by
  refine yields_bind fun k => yields_bind fun _ => yields_bind fun _ => ?_
  refine (yields_readValue _).bind fun n hn => yields_bind fun _ => ?_
  refine (yields_ofOption fun es hes => h.within (fun kind es es' hes hput => ?_) hes).bind
    fun es hes => yields_pure hes
  exact hes.putPair hn hput

/-- **A document never has a key twice.** -/
lemma yields_readLines : (readLines ⟨[], []⟩).Yields fun d => d.entries.Orderly := by
  refine Yields.iterate (fun d hd => yields_bind fun c => ?_) Entries.orderly_nil
  split
  · exact yields_pure hd
  · refine Yields.map (P := fun d => d.entries.Orderly) ?_ fun d hd => hd
    refine yields_bind fun _ => yields_bind fun c => ?_
    split
    · exact yields_readHeader hd
    · split
      · exact yields_bind fun _ => yields_pure hd
      · exact yields_readPair hd
    · exact yields_pure hd

end Draft

/-! ### Layers -/

namespace Node

lemma toTable?_eq_some_iff {es : List (String × Node)} {t : Layer.Table} :
    toTable? es = some t ↔
      List.Forall₂ (fun e w => w.1 = e.1 ∧ e.2.toValue? = some w.2) es t := by
  induction es generalizing t with
  | nil => simp [toTable?, eq_comm]
  | cons e es ih =>
    rw [toTable?, List.forall₂_cons_left_iff]
    simp only [Option.bind_eq_bind, Option.bind_eq_some_iff, Option.pure_def, Option.some.injEq]
    constructor
    · rintro ⟨v, hv, t, ht, rfl⟩
      exact ⟨(e.1, v), t, ⟨rfl, hv⟩, ih.1 ht, rfl⟩
    · rintro ⟨⟨k, v⟩, t, ⟨rfl, hv⟩, ht, rfl⟩
      exact ⟨v, hv, t, ih.2 ht, rfl⟩

lemma keys_of_toTable? {es : List (String × Node)} {t : Layer.Table} (h : toTable? es = some t) :
    t.map (·.1) = es.map (·.1) := by
  have hall := toTable?_eq_some_iff.1 h
  clear h
  induction hall with
  | nil => rfl
  | cons hew _ ih => rw [List.map_cons, List.map_cons, hew.1, ih]

lemma exists_of_toTable? {es : List (String × Node)} {t : Layer.Table} {key : String}
    {v : Layer.Value} (h : toTable? es = some t) (hv : t.lookup key = some v) :
    ∃ e ∈ es, e.2.toValue? = some v := by
  have hall := toTable?_eq_some_iff.1 h
  have hmem : (key, v) ∈ t := by
    obtain ⟨front, back, rfl, -⟩ := List.lookup_eq_some_iff.1 hv
    simp
  clear h hv
  induction hall with
  | nil => cases hmem
  | cons hew _ ih =>
    rcases List.mem_cons.1 hmem with rfl | hmem
    · exact ⟨_, List.mem_cons_self, hew.2⟩
    · obtain ⟨e, he, hev⟩ := ih hmem
      exact ⟨e, List.mem_cons_of_mem _ he, hev⟩

/-- A table that a node stands for has no key twice. -/
lemma Orderly.nodup {n : Node} (h : n.Orderly) {t : Layer.Table}
    (ht : n.toValue? = some (.table t)) : (t.map (·.1)).Nodup := by
  induction h generalizing t with
  | table kind keys nodes ih =>
    rw [toValue?] at ht
    obtain ⟨s, hs, ht⟩ := Option.bind_eq_some_iff.1 ht
    unfold ofTable? at ht
    split at ht
    · cases ht
    · cases hv : s.lookup valueKey with
      | none =>
        rw [hv] at ht
        cases ht
        rw [keys_of_toTable? hs]
        exact keys
      | some v =>
        rw [hv] at ht
        obtain ⟨e, he, hev⟩ := exists_of_toTable? hs hv
        exact ih e he (hev.trans ht)
  | @other n h =>
    cases n with
    | moment value =>
      cases ht
      exact List.nodup_singleton _
    | table kind es => exact absurd rfl (h kind es)
    | text | flag | number => cases ht
    | array | tables =>
      rw [toValue?] at ht
      obtain ⟨items, -, hitems⟩ := Option.map_eq_some_iff.1 ht
      cases hitems

end Node

/-- The layer of a document has no key twice, and neither has a table in it. -/
lemma nodup_of_read? {text : String} {layer : Layer.Table} (h : read? text = some layer) :
    (layer.map (·.1)).Nodup ∧ ∀ key t, layer.lookup key = some (.table t) →
      (t.map (·.1)).Nodup := by
  unfold read? at h
  dsimp only at h
  split at h
  · cases h
  · rename_i d rest hd
    have hes : d.entries.Orderly := Draft.yields_readLines _ _ _ hd
    refine ⟨Node.keys_of_toTable? h ▸ hes.keys, fun key t ht => ?_⟩
    obtain ⟨e, he, hev⟩ := Node.exists_of_toTable? h ht
    exact (hes.nodes e he).nodup hev

end SavedState.Toml
