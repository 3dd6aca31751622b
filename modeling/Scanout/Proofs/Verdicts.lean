import Scanout.Proofs.Caching

/-!
# What becomes of the trials

A report that names no winner judges no trial.  One that names a winner names a
trial of its own that was delivered, and its verdicts say so: the winner is the
one accepted trial, and an operator who chose it has rejected the other
delivered ones (`Sweep.Judged`).  This rests on the numbers of the trials, which
are those of the attempts and so all different.

Without an operator the winner is the trial that padding selects.  Verdicts do
not matter to padding, so it selects the same among the judged trials
(`Sweep.selectByPadding_rated`).  With an operator there is one consultation:
the delivered trials are shown, and then questions are asked.  A sweep that was
cut short while it tried layouts consults nobody.
-/

namespace Scanout

/-! ## Trials with different numbers -/

namespace Trial

theorem filter_index {ts : List Trial} (h : (ts.map index).Nodup) {t : Trial} (ht : t ∈ ts) :
    ts.filter (·.index == t.index) = [t] := by
  induction ts with
  | nil => cases ht
  | cons u ts ih =>
      obtain ⟨hu, hts⟩ := List.nodup_cons.mp h
      rcases List.mem_cons.mp ht with rfl | ht
      · rw [List.filter_cons, if_pos (beq_self_eq_true t.index)]
        refine congrArg _ (List.filter_eq_nil_iff.mpr ?_)
        intro v hv hsame
        exact hu (List.mem_map.mpr ⟨v, hv, beq_iff_eq.mp hsame⟩)
      · rw [List.filter_cons_of_neg, ih hts ht]
        intro hsame
        exact hu (List.mem_map.mpr ⟨t, ht, (beq_iff_eq.mp hsame).symm⟩)

/-! ## Selecting by padding -/

theorem least_map {before : Trial → Trial → Bool} {f : Trial → Trial}
    (hf : ∀ t u, before (f t) (f u) = before t u)
    (ts : List Trial) : least before (ts.map f) = (least before ts).map f := by
  induction ts with
  | nil => rfl
  | cons t ts ih =>
      rw [List.map_cons, least, least, ih]
      cases least before ts with
      | none => rfl
      | some u =>
          rw [Option.map_some]
          dsimp only
          rw [hf u t]
          split
          · rfl
          · rfl

theorem least_eq_none_iff {before : Trial → Trial → Bool} {ts : List Trial} :
    least before ts = none ↔ ts = [] := by
  constructor
  · intro h
    cases ts with
    | nil => rfl
    | cons t ts =>
        rw [least] at h
        split at h
        · cases h
        · split at h
          · cases h
          · cases h
  · rintro rfl
    rfl

theorem selectByPadding_isSome {ts : List Trial} :
    (selectByPadding ts).isSome = true ↔ 0 < ts.countP delivered := by
  rw [← Option.ne_none_iff_isSome, List.countP_eq_length_filter, List.length_pos_iff,
    selectByPadding]
  split
  · rename_i t ht
    refine ⟨fun _ => ?_, fun _ => nofun⟩
    exact List.ne_nil_of_mem (List.mem_filter.mp (mem_of_least ht)).1
  · exact not_congr least_eq_none_iff

end Trial

namespace Sweep

variable {σ : Type} {c : Sweep} {r r' : Report} {s s' : Session σ}

/-! ## Verdicts -/

/-- A trial as it is when one was chosen. -/
def rated (c : Sweep) (winner : Nat) (t : Trial) : Trial := { t with verdict := c.verdict winner t }

theorem trials_judge (c : Sweep) (winner : Nat) (r : Report) :
    (c.judge winner r).trials = r.trials.map (c.rated winner) := rfl

theorem verdict_eq_accepted_iff {winner : Nat} {t : Trial} :
    c.verdict winner t = .accepted ↔ t.index = winner := by
  unfold verdict
  split
  · simp [*]
  · split
    · simp [*]
    · simp [*]

theorem selectByPadding_rated (c : Sweep) (winner : Nat) (ts : List Trial) :
    Trial.selectByPadding (ts.map (c.rated winner))
      = (Trial.selectByPadding ts).map (c.rated winner) := by
  have hdelivered : (ts.map (c.rated winner)).filter Trial.delivered
      = (ts.filter Trial.delivered).map (c.rated winner) := by
    rw [List.filter_map]
    rfl
  have hpadded : ∀ us : List Trial,
      (us.map (c.rated winner)).filter (fun t => decide (0 < t.layout.padding))
      = (us.filter fun t => decide (0 < t.layout.padding)).map (c.rated winner) := by
    intro us
    rw [List.filter_map]
    rfl
  have hlessPadding : ∀ us : List Trial, Trial.least Trial.lessPadding (us.map (c.rated winner))
      = (Trial.least Trial.lessPadding us).map (c.rated winner) := Trial.least_map fun _ _ => rfl
  have hearlier : ∀ us : List Trial, Trial.least Trial.earlier (us.map (c.rated winner))
      = (Trial.least Trial.earlier us).map (c.rated winner) := Trial.least_map fun _ _ => rfl
  unfold Trial.selectByPadding
  dsimp only
  rw [hdelivered, hpadded, hlessPadding, hearlier]
  cases Trial.least Trial.lessPadding
    ((ts.filter Trial.delivered).filter fun t => decide (0 < t.layout.padding)) with
  | none => rfl
  | some t => rfl

/-- One trial was chosen, and the verdicts say which. -/
structure Judged (c : Sweep) (r : Report) (w : Trial) : Prop where
  /-- It is the trial of its number. -/
  named : r.trials.filter (·.index == w.index) = [w]
  delivered : w.delivered = true
  /-- It alone is accepted. -/
  accepted : r.trials.filter (·.verdict == .accepted) = [w]
  others : ∀ t ∈ r.trials, t ≠ w →
    t.verdict = if c.selection = .interactive ∧ t.delivered = true then .rejected else .unrated

theorem judged_rated {t : Trial} (hnodup : (r.trials.map Trial.index).Nodup) (ht : t ∈ r.trials)
    (hdelivered : t.delivered = true) (hr' : r'.trials = r.trials.map (c.rated t.index)) :
    Judged c r' (c.rated t.index t) := by
  have hone := Trial.filter_index hnodup ht
  constructor
  · rw [hr', List.filter_map]
    exact congrArg (List.map _) hone
  · exact hdelivered
  · have hsame : (fun u : Trial => (c.rated t.index u).verdict == .accepted)
        = fun u => u.index == t.index := by
      funext u
      rw [Bool.eq_iff_iff, beq_iff_eq, beq_iff_eq]
      exact verdict_eq_accepted_iff
    rw [hr', List.filter_map, show (·.verdict == .accepted) ∘ c.rated t.index = _ from hsame, hone]
    rfl
  · intro v hv hne
    rw [hr'] at hv
    obtain ⟨u, hu, rfl⟩ := List.mem_map.mp hv
    -- Another trial has another number, because the numbers are all different.
    have hindex : u.index ≠ t.index := by
      intro hsame
      have hmem : u ∈ r.trials.filter (·.index == t.index) :=
        List.mem_filter.mpr ⟨hu, beq_iff_eq.mpr hsame⟩
      rw [hone, List.mem_singleton] at hmem
      exact hne (congrArg _ hmem)
    show c.verdict t.index u = _
    rw [verdict, if_neg hindex]
    rfl

/-- A delivered trial that was named is the winner, with the verdict on it. -/
theorem Concludes.winner_eq {t : Trial} (h : Concludes c t.index r s r' s')
    (hnodup : (r.trials.map Trial.index).Nodup) (ht : t ∈ r.trials) :
    r'.winner = some (c.rated t.index t) ∧ r'.trials = r.trials.map (c.rated t.index) := by
  have hfind : (c.judge t.index r).trials.find? (·.index == t.index)
      = some (c.rated t.index t) := by
    rw [← List.head?_filter, trials_judge, List.filter_map]
    exact congrArg (fun ts => (List.map (c.rated t.index) ts).head?) (Trial.filter_index hnodup ht)
  cases h with
  | unnamed hnone =>
      rw [hfind] at hnone
      cases hnone
  | unsaved hsome _ _ => exact ⟨hsome.symm.trans hfind, rfl⟩
  | saved hsome _ _ _ => exact ⟨hsome.symm.trans hfind, rfl⟩

/-- A choice that ends well judges all trials or none. -/
theorem Finalizes.judged (h : Finalizes c r s r' s') (hr : r.Unchosen)
    (hnodup : (r.trials.map Trial.index).Nodup) :
    (r'.winner = none ∧ r'.trials = r.trials)
      ∨ ∃ t ∈ r.trials, t.delivered = true ∧ r'.winner = some (c.rated t.index t)
        ∧ r'.trials = r.trials.map (c.rated t.index) := by
  cases h with
  | unchosen _ => exact .inl ⟨hr.winner, rfl⟩
  | interrupted _ _ => exact .inl ⟨hr.winner, rfl⟩
  | concluded hnamed _ hconcludes =>
      obtain ⟨t, ht, rfl, hdelivered⟩ := hnamed
      exact .inr ⟨t, ht, hdelivered, hconcludes.winner_eq hnodup ht⟩

theorem Finalizes.verdicts (h : Finalizes c r s r' s') (hr : r.Unchosen)
    (hnodup : (r.trials.map Trial.index).Nodup) :
    (r'.winner = none → ∀ t ∈ r'.trials, t.verdict = .unrated)
      ∧ ∀ w, r'.winner = some w → Judged c r' w := by
  rcases h.judged hr hnodup with ⟨hwinner, htrials⟩ | ⟨t, ht, hdelivered, hwinner, htrials⟩
  · rw [hwinner, htrials]
    exact ⟨fun _ => hr.unrated, fun _ h => nomatch h⟩
  · rw [hwinner]
    refine ⟨fun h => (nomatch h), ?_⟩
    rintro w ⟨⟩
    exact judged_rated hnodup ht hdelivered htrials

/-- Without an operator, the winner is the trial that padding selects. -/
theorem winner_of_unattended (h : c.finalize r s = (.ok r', s'))
    (hselection : c.selection = .unattended) (hr : r.Unchosen)
    (hnodup : (r.trials.map Trial.index).Nodup) :
    r'.winner = Trial.selectByPadding r'.trials := by
  by_cases hd : r.delivered = 0
  · rw [finalize_of_undelivered hd] at h
    cases h
    rw [hr.winner]
    cases hpadding : Trial.selectByPadding r.trials with
    | none => rfl
    | some t =>
        have hpos : 0 < r.delivered := Trial.selectByPadding_isSome.mp (by rw [hpadding]; rfl)
        omega
  · rw [finalize_eq hd, pick, hselection] at h
    dsimp only at h
    cases hpadding : Trial.selectByPadding r.trials with
    | none =>
        rw [hpadding] at h
        cases h
        rw [hr.winner, hpadding]
    | some t =>
        rw [hpadding] at h
        obtain ⟨hwinner, htrials⟩ :=
          (concludes_of_conclude h).winner_eq hnodup (Trial.mem_of_selectByPadding hpadding).1
        rw [hwinner, htrials, selectByPadding_rated, hpadding, Option.map_some]

end Sweep

/-! ## Consultations -/

/-- The event, if the operator was shown trials or asked a question. -/
def Event.consulting? : Event → Option Event
  | presented trials => some (presented trials)
  | asked prompt => some (asked prompt)
  | _ => none

/-- What the operator was shown and asked, in order. -/
def Session.consultations {σ : Type} (s : Session σ) : List Event :=
  s.journal.filterMap Event.consulting?

theorem Session.consultations_eq {σ : Type} (s : Session σ) :
    s.consultations = s.deeds.filterMap Event.consulting? := s.filterMap_journal fun _ => rfl

namespace Sweep

variable {σ : Type} {c : Sweep} {r : Report} {s s' t : Session σ}

theorem filterMap_consultation (c : Sweep) (r : Report) (n : Nat) :
    (c.consultation r n).filterMap Event.consulting? = c.consultation r n := by
  refine (List.filterMap_congr ?_).trans List.filterMap_some
  intro e he
  rcases mem_consultation he with rfl | rfl
  · rfl
  · rfl

/-- Choosing consults the operator once, if there is one and there is something
to choose from. -/
theorem consultations_finalize (c : Sweep) (r : Report) (s : Session σ) (h : r.delivered ≠ 0) :
    ∃ n, (c.finalize r s).2.consultations = s.consultations ++ c.consultation r n := by
  obtain ⟨-, n, saved, hdeeds⟩ := deeds_finalize c s h
  refine ⟨n, ?_⟩
  have hsaved : (saved.toList.map Event.saved).filterMap Event.consulting? = [] := by
    refine List.filterMap_eq_nil_iff.mpr ?_
    intro e he
    obtain ⟨l, -, rfl⟩ := List.mem_map.mp he
    rfl
  rw [Session.consultations_eq, hdeeds, List.filterMap_append, List.filterMap_append,
    filterMap_consultation, hsaved, List.append_nil, Session.consultations_eq]

theorem Report.Unchosen.map_unjudged (h : r.Unchosen) : r.trials.map Trial.unjudged = r.trials := by
  rw [List.map_congr_left fun t ht => Trial.unjudged_of_unrated (h.unrated t ht), List.map_id']

theorem filter_delivered_unjudged (ts : List Trial) :
    (ts.map Trial.unjudged).filter Trial.delivered
      = (ts.filter Trial.delivered).map Trial.unjudged := by
  rw [List.filter_map]
  rfl

theorem Report.delivered_eq_of_unjudged {r r' : Report}
    (h : r.trials.map Trial.unjudged = r'.trials.map Trial.unjudged) :
    r.delivered = r'.delivered := by
  have hcount : ∀ ts : List Trial, ts.countP Trial.delivered
      = (ts.map Trial.unjudged).countP Trial.delivered := by
    intro ts
    rw [List.countP_map]
    rfl
  rw [delivered, delivered, hcount, h, ← hcount]

/-- What an operator is shown is what the report has in the end, but for the
verdicts. -/
theorem consultations_of_finalize {t : Session σ} {q : Report} (h : c.finalize q t = (.ok r, s'))
    (hq : q.Unchosen) :
    (c.selection = .unattended ∨ r.delivered = 0 → s'.consultations = t.consultations)
      ∧ (c.selection = .interactive → 0 < r.delivered → ∃ n, s'.consultations = t.consultations
          ++ .presented ((r.trials.filter Trial.delivered).map Trial.unjudged)
            :: List.replicate n (.asked question)) := by
  have htrials := (finalizes_of_finalize h).trials
  have hdelivered : r.delivered = q.delivered := Report.delivered_eq_of_unjudged htrials
  by_cases hd : q.delivered = 0
  · rw [finalize_of_undelivered hd] at h
    cases h
    refine ⟨fun _ => ?_, fun _ hpos => absurd hd (Nat.ne_of_gt hpos)⟩
    rw [Session.consultations_eq, Session.deeds_warn, Session.consultations_eq]
  · obtain ⟨n, hn⟩ := consultations_finalize c q t hd
    rw [h] at hn
    rw [hdelivered]
    constructor
    · rintro (hselection | hnone)
      · rw [hn, consultation, hselection, List.append_nil]
      · exact absurd hnone hd
    · intro hselection _
      refine ⟨n, ?_⟩
      rw [hn, consultation, hselection, ← filter_delivered_unjudged, htrials, hq.map_unjudged]

/-! ## Runs -/

variable [Sink σ] {frame : Frame}

theorem Reports.nodup {as : List Attempt} (h : Reports c as r) :
    (r.trials.map Trial.index).Nodup := by
  rw [h.indices]
  exact List.nodup_range'

/-- A report that names no winner judges no trial, and one that names a winner
names a delivered trial of its own, with the verdicts that go with it.  Without
an operator a sweep that is not cancelled has a winner if anything was
delivered, the trial that padding selects.  An operator is shown the delivered
trials once, before the first question, and nothing if there are none or if the
sweep was cut short while it tried layouts. -/
theorem run_judges (h : c.run frame s = (.ok r, s')) :
    (r.winner = none → ∀ t ∈ r.trials, t.verdict = .unrated)
      ∧ (∀ w, r.winner = some w → Judged c r w)
      ∧ (c.selection = .unattended → r.cancelled = false →
          r.winner = Trial.selectByPadding r.trials ∧ (r.winner.isSome = true ↔ 0 < r.delivered))
      ∧ (c.CutShort frame s → r.cancelled = true)
      ∧ (c.selection = .unattended ∨ r.delivered = 0 ∨ c.CutShort frame s →
          s'.consultations = s.consultations)
      ∧ (c.selection = .interactive → 0 < r.delivered → ¬ c.CutShort frame s →
          ∃ n, s'.consultations = s.consultations
            ++ .presented ((r.trials.filter Trial.delivered).map Trial.unjudged)
              :: List.replicate n (.asked question)) := by
  obtain ⟨as, htries⟩ := c.swept_tries frame s
  obtain ⟨p, t, hswept, hends⟩ := run_eq_ok h
  rw [hswept] at htries
  have hunchosen : p.report.Unchosen := htries.unchosen
  have hnodup := htries.reports.nodup
  have hclosing : (t.cleanUp.info p.report.summary).consultations = s.consultations :=
    view_closing htries p.report.summary (fun _ => rfl) (fun _ _ => rfl) rfl
  rcases hends with ⟨hcancelled, rfl, rfl⟩ | ⟨hrunning, hfinalize⟩
  · have hcut : c.CutShort frame s := ⟨p, t, hswept, hcancelled⟩
    refine ⟨fun _ => hunchosen.unrated, ?_, ?_, fun _ => hcancelled, fun _ => hclosing, ?_⟩
    · intro w hw
      rw [hunchosen.winner] at hw
      cases hw
    · intro _ hnot
      rw [hcancelled] at hnot
      cases hnot
    · exact fun _ _ hnot => absurd hcut hnot
  · have hnotCut : ¬ c.CutShort frame s := by
      rintro ⟨q, u, hq, hcancelled⟩
      rw [hswept] at hq
      cases hq
      rw [hrunning] at hcancelled
      cases hcancelled
    obtain ⟨hunrated, hjudged⟩ := (finalizes_of_finalize hfinalize).verdicts hunchosen hnodup
    obtain ⟨hquiet, hconsulted⟩ := consultations_of_finalize hfinalize hunchosen
    rw [hclosing] at hquiet hconsulted
    refine ⟨hunrated, hjudged, ?_, fun hcut => absurd hcut hnotCut, ?_, fun hselection hpos _ =>
      hconsulted hselection hpos⟩
    · intro hselection _
      have hwinner := winner_of_unattended hfinalize hselection hunchosen hnodup
      refine ⟨hwinner, ?_⟩
      rw [hwinner]
      exact Trial.selectByPadding_isSome
    · rintro (hselection | hnone | hcut)
      · exact hquiet (.inl hselection)
      · exact hquiet (.inr hnone)
      · exact absurd hcut hnotCut

/-- Of two layouts the first is refused, and the operator names the second. -/
theorem run_judges_small :
    let c := { smallSweep with selection := .interactive }
    let s : Session ScriptedSink :=
      { sink := { failures := [(1, .sinkWriteFailure "device" "busy")] }, answers := [.line "2"] }
    ∃ r s', c.run smallPicture s = (.ok r, s') ∧ ∃ w, r.winner = some w ∧ w.index = 2
      ∧ Judged c r w := by
  intro c s
  have hwinner : (c.run smallPicture s).1.toOption.map (·.winner.map Trial.index)
      = some (some 2) := by decide +kernel
  cases hrun : c.run smallPicture s with
  | mk o s' =>
      rw [hrun] at hwinner
      cases o with
      | error f => cases hwinner
      | ok r =>
          obtain ⟨w, hw, hindex⟩ := Option.map_eq_some_iff.mp (Option.some.inj hwinner)
          exact ⟨r, s', rfl, w, hw, hindex, (run_judges hrun).2.1 w hw⟩

/-- The moment to stop comes with the first of two frames.  The sweep reports a
delivered trial that the operator was not shown. -/
theorem stopped_unshown :
    let c := { smallSweep with selection := .interactive }
    let s : Session ScriptedSink := { sink := { stopOn := some 1 } }
    ∃ r s', c.run smallPicture s = (.ok r, s') ∧ r.trials.filter Trial.delivered ≠ []
      ∧ s'.consultations = [] := by
  intro c s
  have hdelivered : (c.run smallPicture s).1.toOption.map (·.trials.filter Trial.delivered)
      = some [{ index := 1, layout := smallLayout }] := by decide +kernel
  have hquiet : (c.run smallPicture s).2.consultations = [] := by decide +kernel
  cases hrun : c.run smallPicture s with
  | mk o s' =>
      rw [hrun] at hdelivered hquiet
      cases o with
      | error f => cases hdelivered
      | ok r =>
          have hone := Option.some.inj hdelivered
          dsimp only at hone
          refine ⟨r, s', rfl, ?_, hquiet⟩
          rw [hone]
          exact List.cons_ne_nil _ _

end Sweep

end Scanout
