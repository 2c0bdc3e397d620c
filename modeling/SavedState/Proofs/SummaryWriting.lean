import SavedState.Proofs.MemoryWriting
import SavedState.Summary

/-!
Summaries that are written to two channels.

The lines of the diagnostics go to one channel, and after them the lines of the rounds and of the
artifacts go to the other. Either channel may refuse at any byte. What has been delivered by then
are the beginnings of two texts, of the second only where the first is there to its end, and the
first refusal is what comes of it all.
-/

namespace SavedState

variable {σ : Type} {out diagnostics : Channel σ} {m n : Option Nat} {e f : IoError}
  {keep outBroken diagnosticsBroken : List UInt8 → List UInt8 → σ}

/-- Pieces that are written to one channel and then others to another one. The world keeps apart
what the two have taken. -/
lemma Channel.run_forM_forM (hout : ∀ d, out.Breaks m e (keep · d) (outBroken · d))
    (hdiagnostics : ∀ o, diagnostics.Breaks n f (keep o) (diagnosticsBroken o))
    (ps qs : List (List UInt8)) :
    (ps.forM diagnostics.write >>= fun _ => qs.forM out.write).run.run (keep [] []) =
      if cut n ps.flatten ≠ ps.flatten then (.error f, diagnosticsBroken [] (cut n ps.flatten))
      else if cut m qs.flatten ≠ qs.flatten then
        (.error e, outBroken (cut m qs.flatten) ps.flatten)
      else (.ok (), keep qs.flatten ps.flatten) := by
  have hfirst := (hdiagnostics []).forM id ps (isWithin_nil n)
  have hsecond := (hout ps.flatten).forM id qs (isWithin_nil m)
  rw [List.nil_append, List.flatMap_id] at hfirst hsecond
  change (ps.forM diagnostics.write).run.run _ = _ at hfirst
  change (qs.forM out.write).run.run _ = _ at hsecond
  rw [Act.run_bind, hfirst]
  simp only [ne_eq, cut_eq_iff, ite_not]
  by_cases hn : IsWithin n ps.flatten
  · rw [if_pos hn, if_pos hn]
    exact hsecond
  · rw [if_neg hn, if_neg hn]

/-! ### One channel -/

section

variable {c : Channel σ} {pieces : List (List UInt8)} {w w' : σ}

/-- A channel takes some pieces one after another, by which one world becomes another. -/
inductive Channel.Delivers (c : Channel σ) : List (List UInt8) → σ → σ → Prop
  | done (w : σ) : Delivers c [] w w
  | next {piece : List UInt8} {pieces : List (List UInt8)} {w w₁ w' : σ}
      (htaken : (c.write piece).run.run w = (.ok (), w₁)) (hrest : Delivers c pieces w₁ w') :
      Delivers c (piece :: pieces) w w'

/-- A channel refuses one of some pieces, after it has taken those in front of it. -/
inductive Channel.Refuses (c : Channel σ) (e : IoError) : List (List UInt8) → σ → σ → Prop
  | now {piece : List UInt8} {pieces : List (List UInt8)} {w w' : σ}
      (hrefused : (c.write piece).run.run w = (.error e, w')) : Refuses c e (piece :: pieces) w w'
  | later {piece : List UInt8} {pieces : List (List UInt8)} {w w₁ w' : σ}
      (htaken : (c.write piece).run.run w = (.ok (), w₁)) (hrest : Refuses c e pieces w₁ w') :
      Refuses c e (piece :: pieces) w w'

lemma Channel.forM_cons (c : Channel σ) (piece : List UInt8) (pieces : List (List UInt8)) :
    (piece :: pieces).forM c.write = c.write piece >>= fun _ => pieces.forM c.write :=
  rfl

lemma Channel.delivers_iff :
    c.Delivers pieces w w' ↔ (pieces.forM c.write).run.run w = (.ok (), w') := by
  constructor
  · intro h
    induction h with
    | done w => rfl
    | next htaken _ ih =>
      rw [forM_cons, Act.run_bind, htaken]
      exact ih
  · intro h
    induction pieces generalizing w with
    | nil =>
      cases h
      exact .done _
    | cons piece pieces ih =>
      rw [forM_cons, Act.run_bind] at h
      cases hr : (c.write piece).run.run w with
      | mk r w₁ =>
        rw [hr] at h
        cases r with
        | error e => cases h
        | ok _ => exact .next hr (ih h)

lemma Channel.refuses_iff :
    c.Refuses e pieces w w' ↔ (pieces.forM c.write).run.run w = (.error e, w') := by
  constructor
  · intro h
    induction h with
    | now hrefused => rw [forM_cons, Act.run_bind, hrefused]
    | later htaken _ ih =>
      rw [forM_cons, Act.run_bind, htaken]
      exact ih
  · intro h
    induction pieces generalizing w with
    | nil => cases h
    | cons piece pieces ih =>
      rw [forM_cons, Act.run_bind] at h
      cases hr : (c.write piece).run.run w with
      | mk r w₁ =>
        rw [hr] at h
        cases r with
        | error e' =>
          cases h
          exact .now hr
        | ok _ => exact .later hr (ih h)

end

/-! ### Both channels -/

namespace Summary

/-- The bytes of lines, line by line. -/
def pieces (lines : List String) : List (List UInt8) :=
  lines.map fun line => Text.bytes (line ++ "\n")

lemma writeLines_eq (c : Channel σ) (lines : List String) :
    writeLines c lines = (pieces lines).forM c.write := by
  induction lines with
  | nil => rfl
  | cons line lines ih =>
    rw [writeLines, ih]
    rfl

lemma flatten_pieces (lines : List String) :
    (pieces lines).flatten = Text.bytes (String.join (lines.map (· ++ "\n"))) := by
  rw [Text.bytes_lines, pieces, List.flatMap_def]

/-- A summary has been printed: a line for each diagnostic on one channel, and then the lines of the
rounds and of the artifacts on the other. -/
def Printed (s : Summary) (out diagnostics : Channel σ) (terminal after : σ) : Prop :=
  ∃ told, diagnostics.Delivers (pieces (s.diagnostics.map Diagnostic.render)) terminal told ∧
    out.Delivers (pieces s.progressLines) told after

/-- The printing of a summary has been ended by a refusal. -/
def CutShort (s : Summary) (out diagnostics : Channel σ) (e : IoError) (terminal after : σ) :
    Prop :=
  diagnostics.Refuses e (pieces (s.diagnostics.map Diagnostic.render)) terminal after ∨
    ∃ told, diagnostics.Delivers (pieces (s.diagnostics.map Diagnostic.render)) terminal told ∧
      out.Refuses e (pieces s.progressLines) told after

section

variable {s : Summary} {terminal after : σ}

lemma write_eq (s : Summary) (out diagnostics : Channel σ) :
    s.write out diagnostics =
      (pieces (s.diagnostics.map Diagnostic.render)).forM diagnostics.write >>= fun _ =>
        (pieces s.progressLines).forM out.write := by
  unfold write
  rw [writeLines_eq, writeLines_eq]
  rfl

lemma printed_iff : s.Printed out diagnostics terminal after ↔
    (s.write out diagnostics).run.run terminal = (.ok (), after) := by
  unfold Printed
  simp only [Channel.delivers_iff, write_eq, Act.run_bind]
  constructor
  · rintro ⟨told, hfirst, hsecond⟩
    rw [hfirst]
    exact hsecond
  · intro h
    cases hr : ((pieces (s.diagnostics.map Diagnostic.render)).forM diagnostics.write).run.run
      terminal with
    | mk r told =>
      rw [hr] at h
      cases r with
      | error e => cases h
      | ok _ => exact ⟨told, rfl, h⟩

lemma cutShort_iff : s.CutShort out diagnostics e terminal after ↔
    (s.write out diagnostics).run.run terminal = (.error e, after) := by
  unfold CutShort
  simp only [Channel.delivers_iff, Channel.refuses_iff, write_eq, Act.run_bind]
  constructor
  · rintro (hfirst | ⟨told, hfirst, hsecond⟩)
    · rw [hfirst]
    · rw [hfirst]
      exact hsecond
  · intro h
    cases hr : ((pieces (s.diagnostics.map Diagnostic.render)).forM diagnostics.write).run.run
      terminal with
    | mk r told =>
      rw [hr] at h
      cases r with
      | error e' =>
        cases h
        exact .inl rfl
      | ok _ => exact .inr ⟨told, rfl, h⟩

/-- What has been cut short has not been printed. -/
lemma CutShort.not_printed (h : s.CutShort out diagnostics e terminal after) {after' : σ} :
    ¬s.Printed out diagnostics terminal after' := by
  rw [printed_iff, cutShort_iff.1 h]
  nofun

end

/-- **A summary is written in order, up to the first refusal.** The channel for diagnostics gets as
much as its limit allows of the text with a line for each diagnostic. The other one gets nothing
unless that is the whole text, and then as much as its own limit allows of the text with a line for
each round and then one for each artifact. All is well just if both texts are delivered whole; else
the result is the error of the channel that has refused, and nothing is written after that. How the
texts are cut into pieces does not matter. -/
theorem written_up_to_first_refusal (s : Summary)
    (hout : ∀ d, out.Breaks m e (keep · d) (outBroken · d))
    (hdiagnostics : ∀ o, diagnostics.Breaks n f (keep o) (diagnosticsBroken o)) :
    let told := Text.bytes (String.join (s.diagnostics.map fun x => x.render ++ "\n"))
    let progress := Text.bytes (String.join (s.rounds.map fun r => roundLine r.1 r.2 ++ "\n") ++
      String.join (s.artifacts.map fun a =>
        (if s.isDryRun then "would write " else "wrote ") ++ a ++ "\n"))
    let d := cut n told
    let o := if d = told then cut m progress else []
    let run : Except IoError Unit × σ := (s.write out diagnostics).run.run (keep [] [])
    (d <+: told ∧ o <+: progress ∧ (o ≠ [] → d = told)) ∧
      (run.1 = .ok () ↔ d = told ∧ o = progress) ∧
      (d = told → o = progress → run = (.ok (), keep o d)) ∧
      (d ≠ told → run = (.error f, diagnosticsBroken o d)) ∧
      (d = told → o ≠ progress → run = (.error e, outBroken o d)) ∧
      ∀ ps qs : List (List UInt8), ps.flatten = told → qs.flatten = progress →
        (ps.forM diagnostics.write >>= fun _ => qs.forM out.write).run.run (keep [] []) = run := by
  intro told progress d o run
  have htold : (pieces s.diagnosticLines).flatten = told := by
    rw [flatten_pieces, diagnosticLines, List.map_map]
    rfl
  have hprogress : (pieces s.progressLines).flatten = progress := by
    rw [flatten_pieces, progressLines, List.map_append, List.map_map, List.map_map,
      String.join_append]
    rfl
  have hpieces := Channel.run_forM_forM hout hdiagnostics
  have hrun : run = if d ≠ told then (.error f, diagnosticsBroken [] d)
      else if cut m progress ≠ progress then (.error e, outBroken (cut m progress) told)
      else (.ok (), keep progress told) := by
    change (writeLines diagnostics _ >>= fun _ => writeLines out _).run.run _ = _
    rw [writeLines_eq, writeLines_eq, hpieces, htold, hprogress]
  have hall : ∀ ps qs : List (List UInt8), ps.flatten = told → qs.flatten = progress →
      (ps.forM diagnostics.write >>= fun _ => qs.forM out.write).run.run (keep [] []) = run := by
    rintro ps qs hps hqs
    rw [hpieces, hrun, hps, hqs]
  by_cases hd : d = told
  · have ho : o = cut m progress := if_pos hd
    rw [if_neg (not_not.2 hd), ← ho] at hrun
    refine ⟨⟨prefix_cut n told, ho ▸ prefix_cut m progress, fun _ => hd⟩, ?_, ?_,
      fun h => absurd hd h, ?_, hall⟩
    · by_cases hm : o = progress
      · rw [hrun, if_neg (not_not.2 hm)]
        exact iff_of_true rfl ⟨hd, hm⟩
      · rw [hrun, if_pos hm]
        exact iff_of_false (fun h => nomatch h) fun h => hm h.2
    · intro _ hm
      rw [hrun, if_neg (not_not.2 hm), hm, hd]
    · intro _ hm
      rw [hrun, if_pos hm, hd]
  · -- the first text is cut, so nothing is written of the second
    have ho : o = [] := if_neg hd
    rw [if_pos hd, ← ho] at hrun
    refine ⟨⟨prefix_cut n told, ho ▸ List.nil_prefix, fun h => absurd ho h⟩, ?_,
      fun h => absurd h hd, fun _ => hrun, fun h => absurd h hd, hall⟩
    rw [hrun]
    exact iff_of_false (fun h => nomatch h) fun h => hd h.1

/-- The diagnostics just fit. The other text is cut in the name of the artifact, between the two
bytes of its letter. -/
theorem written_up_to_first_refusal_inside_letter :
    let t : Treatment :=
      ⟨fun _ => false, fun name => some (if name = "out" then 96 else 20), fun _ => false⟩
    let e : IoError := ⟨.other, "write limit reached"⟩
    let keep (o d : List UInt8) : Artifacts := [("out", o), ("diagnostics", d)]
    let s : Summary := ⟨[("m.json", ⟨1, 0, 0, ⟨0, 0, 0⟩, ⟨[]⟩, 0, 1⟩)],
      [⟨.warning, .type ⟨"é", "A"⟩, "late"⟩], ["é/A.java", "b/B.java"], false⟩
    let o := Text.bytes ("round 1 (m.json): 0 candidates, 0 rejected, 0 unresolved; " ++
      "0 written, 0 skipped, 0 failed\nwrote ") ++ [0xc3]
    let d := Text.bytes "warning: é.A: late\n"
    (∀ d, (t.channel "out").Breaks (some 96) e (keep · d) (keep · d)) ∧
      (∀ o, (t.channel "diagnostics").Breaks (some 20) e (keep o) (keep o)) ∧
      (s.write (t.channel "out") (t.channel "diagnostics")).run.run (keep [] []) =
        (.error e, keep o d) := by
  intro t e keep s o d
  have hempty : ∀ name, name ∉ Artifacts.names [] := fun _ => List.not_mem_nil
  have hnew : ∀ d, "out" ∉ Artifacts.names [("diagnostics", d)] := fun _ =>
    (by decide : "out" ∉ ["diagnostics"])
  have hnew' : ∀ o, "diagnostics" ∉ Artifacts.names [("out", o)] := fun _ =>
    (by decide : "diagnostics" ∉ ["out"])
  have hout : ∀ d, (t.channel "out").Breaks (some 96) e (keep · d) (keep · d) := fun d =>
    (t.channel_keeps (hempty "out") (hnew d)).breaks
  have hdiagnostics : ∀ o, (t.channel "diagnostics").Breaks (some 20) e (keep o) (keep o) :=
    fun o => (t.channel_keeps (hnew' o) (hempty "diagnostics")).breaks
  obtain ⟨-, -, -, -, hcut, -⟩ := written_up_to_first_refusal s hout hdiagnostics
  refine ⟨hout, hdiagnostics, (hcut (by decide +kernel) (by decide +kernel)).trans ?_⟩
  decide +kernel

end Summary

end SavedState
