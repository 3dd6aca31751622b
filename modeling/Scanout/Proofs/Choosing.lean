import Scanout.Proofs.SessionHistory
import Scanout.Sweep

/-!
# How a trial is chosen

After the layouts were tried a sweep chooses in two steps.  `Sweep.pick` names a
trial, by padding or by asking the operator, and touches neither the sink nor
the files; what it names is a trial that was delivered
(`Sweep.picked_delivered`).  `Sweep.conclude` judges the trials and saves the
one that was named.  A sweep is the one step after the other
(`Sweep.finalize_eq`).

All that is added to the deeds of a session is that trials are presented, that
questions are asked and that a layout is saved (`Sweep.deeds_finalize`).
-/

namespace Scanout

/-! ## Trials by padding and by number -/

namespace Trial

theorem mem_of_least {before : Trial → Trial → Bool} {ts : List Trial} {t : Trial}
    (h : least before ts = some t) :
    t ∈ ts := by
  induction ts generalizing t with
  | nil => cases h
  | cons u ts ih =>
      rw [least] at h
      cases hrest : least before ts with
      | none =>
          rw [hrest] at h
          cases h
          exact List.mem_cons_self
      | some v =>
          rw [hrest] at h
          dsimp only at h
          split at h
          · cases h
            exact List.mem_cons_of_mem u (ih hrest)
          · cases h
            exact List.mem_cons_self

theorem mem_of_selectByPadding {ts : List Trial} {t : Trial} (h : selectByPadding ts = some t) :
    t ∈ ts ∧ t.delivered = true := by
  unfold selectByPadding at h
  dsimp only at h
  split at h
  · rename_i hleast
    cases h
    exact List.mem_filter.mp (List.mem_filter.mp (mem_of_least hleast)).1
  · exact List.mem_filter.mp (mem_of_least h)

theorem isSome_selectByIndex_iff {ts : List Trial} {index : Nat} :
    (selectByIndex ts index).isSome = true ↔ ∃ t ∈ ts, t.index = index ∧ t.delivered = true := by
  rw [selectByIndex, List.find?_isSome]
  simp only [Bool.and_eq_true, beq_iff_eq]

/-- The trial as it is before anyone judges it. -/
def unjudged (t : Trial) : Trial := { t with verdict := .unrated }

theorem unjudged_of_unrated {t : Trial} (h : t.verdict = .unrated) : t.unjudged = t := by
  rw [unjudged, ← h]

end Trial

namespace Sweep

variable {σ : Type} {c : Sweep} {r r' : Report} {s s' : Session σ}

/-! ## Asking the operator -/

theorem isSome_of_named? {trials : List Trial} {answer : String} {index : Nat}
    (h : named? trials answer = some index) :
    (Trial.selectByIndex trials index).isSome = true := by
  unfold named? at h
  split at h
  · split at h
    · cases h
      assumption
    · cases h
  · cases h

/-- Some questions were asked, and the world is otherwise as it was. -/
structure Asks (s s' : Session σ) : Prop where
  files : s'.files = s.files
  sink : s'.sink = s.sink
  deeds : ∃ n, s'.deeds = s.deeds ++ List.replicate n (.asked question)

theorem Asks.trans {s'' : Session σ} (h : Asks s s') (h' : Asks s' s'') : Asks s s'' := by
  obtain ⟨n, hn⟩ := h.deeds
  obtain ⟨m, hm⟩ := h'.deeds
  refine ⟨h'.files.trans h.files, h'.sink.trans h.sink, n + m, ?_⟩
  rw [hm, hn, List.append_assoc, List.replicate_append_replicate]

/-- No question was asked, however late it is. -/
theorem Asks.none (s : Session σ) (clock : Clock) : Asks s { s with clock } :=
  ⟨rfl, rfl, 0, (List.append_nil _).symm⟩

/-- One question was asked, however late it is. -/
theorem Asks.one (s : Session σ) (clock : Clock) :
    Asks s (({ s with clock } : Session σ).record (.asked question)) :=
  ⟨rfl, rfl, 1, Session.deeds_record rfl⟩

/-- However asking ends, questions are all that it does, and a number that it
ends with is that of a delivered trial. -/
theorem choose_asks (trials : List Trial) (left : Nat) (s : Session σ) :
    Asks s (choose trials left s).2
      ∧ ∀ index, (choose trials left s).1 = .ok (.picked index) →
        (Trial.selectByIndex trials index).isSome = true := by
  induction left generalizing s with
  | zero => exact ⟨.none s s.clock, fun _ h => nomatch h⟩
  | succ left ih =>
      unfold choose
      split
      · exact ⟨.none s s.clock, fun _ h => nomatch h⟩
      · exact ⟨.none s _, fun _ h => nomatch h⟩
      · rename_i clock _
        have hask := Asks.one s clock
        dsimp only
        split
        · refine ⟨⟨rfl, rfl, ?_⟩, fun _ h => nomatch h⟩
          rw [Session.deeds_warn]
          exact hask.deeds
        · split
          · exact ⟨⟨rfl, rfl, hask.deeds⟩, fun _ h => nomatch h⟩
          · exact ⟨hask, fun _ h => nomatch h⟩
        · exact ⟨⟨rfl, rfl, hask.deeds⟩, fun _ h => nomatch h⟩
        · rename_i answer rest _
          split
          · rename_i named hnamed
            refine ⟨⟨rfl, rfl, hask.deeds⟩, ?_⟩
            intro index h
            cases h
            exact isSome_of_named? hnamed
          · obtain ⟨hrest, hpicked⟩ :=
              ih
                (({ ({ s with clock } : Session σ).record (.asked question) with answers := rest }
                    : Session σ).warn
                  (misnamed answer (maxQuestions - left)))
            refine ⟨hask.trans ⟨hrest.files, hrest.sink, ?_⟩, hpicked⟩
            obtain ⟨n, hn⟩ := hrest.deeds
            exact ⟨n, hn.trans (congrArg (· ++ _) (Session.deeds_warn _ _))⟩

/-! ## Naming a trial -/

/-- Name a trial, by padding or by asking the operator. -/
def pick (c : Sweep) (r : Report) (s : Session σ) : Outcome Choice × Session σ :=
  match c.selection with
  | .unattended =>
      match Trial.selectByPadding r.trials with
      | some t => (.ok (.picked t.index), s)
      | none => (.ok .gaveUp, s)
  | .interactive => choose r.trials maxQuestions
      (s.record (.presented (r.trials.filter Trial.delivered)))

theorem finalize_of_undelivered (h : r.delivered = 0) :
    c.finalize r s = (.ok r, s.warn "No trial reached the projector; nothing to choose from") := by
  rw [finalize]
  dsimp only
  rw [if_pos h]

/-- A trial is named and then saved. -/
theorem finalize_eq (h : r.delivered ≠ 0) :
    c.finalize r s = match c.pick r s with
      | (.error f, s) => (.error f, s)
      | (.ok (.picked index), s) => c.conclude index r s
      | (.ok .gaveUp, s) => (.ok r, s.warn "No configuration chosen; nothing saved")
      | (.ok .interrupted, s) =>
          (.ok { r with cancelled := true },
            s.info "Selection interrupted; configuration not saved") := by
  rw [finalize, pick]
  dsimp only
  rw [if_neg h]
  cases c.selection with
  | unattended =>
      dsimp only
      cases Trial.selectByPadding r.trials with
      | none => rfl
      | some t => rfl
  | interactive => rfl

/-- What is done to the world while a trial is named, when so many questions are
asked. -/
def consultation (c : Sweep) (r : Report) (questions : Nat) : List Event :=
  match c.selection with
  | .unattended => []
  | .interactive =>
      .presented (r.trials.filter Trial.delivered) :: List.replicate questions (.asked question)

theorem mem_consultation {n : Nat} {e : Event} (h : e ∈ c.consultation r n) :
    e = .presented (r.trials.filter Trial.delivered) ∨ e = .asked question := by
  unfold consultation at h
  cases hselection : c.selection with
  | unattended =>
      rw [hselection] at h
      cases h
  | interactive =>
      rw [hselection] at h
      cases List.mem_cons.mp h with
      | inl hpresented => exact .inl hpresented
      | inr hasked => exact .inr (List.eq_of_mem_replicate hasked)

theorem deeds_pick (c : Sweep) (r : Report) (s : Session σ) :
    (c.pick r s).2.files = s.files ∧ (c.pick r s).2.sink = s.sink
      ∧ ∃ n, (c.pick r s).2.deeds = s.deeds ++ c.consultation r n := by
  unfold pick consultation
  cases c.selection with
  | unattended =>
      dsimp only
      cases Trial.selectByPadding r.trials with
      | none => exact ⟨rfl, rfl, 0, (List.append_nil _).symm⟩
      | some t => exact ⟨rfl, rfl, 0, (List.append_nil _).symm⟩
  | interactive =>
      obtain ⟨⟨hfiles, hsink, n, hn⟩, -⟩ := choose_asks r.trials maxQuestions
        (s.record (.presented (r.trials.filter Trial.delivered)))
      refine ⟨hfiles, hsink, n, ?_⟩
      dsimp only
      rw [hn, Session.deeds_record rfl, List.append_assoc, List.singleton_append]

/-- The trial that is named was delivered. -/
theorem picked_delivered {index : Nat} (h : (c.pick r s).1 = .ok (.picked index)) :
    ∃ t ∈ r.trials, t.index = index ∧ t.delivered = true := by
  unfold pick at h
  split at h
  · split at h
    · rename_i t ht
      cases h
      obtain ⟨hmem, hdelivered⟩ := Trial.mem_of_selectByPadding ht
      exact ⟨t, hmem, rfl, hdelivered⟩
    · cases h
  · exact Trial.isSome_selectByIndex_iff.mp ((choose_asks _ _ _).2 index h)

/-- Only an operator can be interrupted. -/
theorem interactive_of_interrupted (h : (c.pick r s).1 = .ok .interrupted) :
    c.selection = .interactive := by
  unfold pick at h
  split at h
  · split at h
    · cases h
    · cases h
  · assumption

/-! ## Saving it -/

theorem mem_judge {winner : Nat} {t : Trial} (h : t ∈ (c.judge winner r).trials) :
    ∃ u ∈ r.trials, t = { u with verdict := c.verdict winner u } := by
  obtain ⟨u, hu, rfl⟩ := List.mem_map.mp h
  exact ⟨u, hu, rfl⟩

/-- Judging changes verdicts only. -/
theorem unjudged_judge (c : Sweep) (winner : Nat) (r : Report) :
    (c.judge winner r).trials.map Trial.unjudged = r.trials.map Trial.unjudged := by
  rw [judge, List.map_map]
  rfl

/-- All that saving a trial does to the world is to save one layout at most. -/
theorem deeds_conclude (c : Sweep) (winner : Nat) (r : Report) (s : Session σ) :
    (c.conclude winner r s).2.sink = s.sink
      ∧ ∃ saved : Option Layout, (c.conclude winner r s).2.deeds
        = s.deeds ++ saved.toList.map .saved := by
  have hnone : s.deeds = s.deeds ++ (none : Option Layout).toList.map .saved :=
    (List.append_nil _).symm
  unfold conclude
  dsimp only
  split
  · exact ⟨rfl, none, hnone⟩
  · rename_i t _
    split
    · exact ⟨rfl, none, (Session.deeds_info _ _).trans hnone⟩
    · split
      · exact ⟨rfl, none, (Session.deeds_info _ _).trans hnone⟩
      · refine ⟨rfl, some t.layout, ?_⟩
        rw [Session.deeds_note, Session.deeds_record rfl]
        exact congrArg (· ++ _) (Session.deeds_info _ _)

/-- A layout that cannot be saved leaves the files as they are. -/
theorem files_conclude_of_error {winner : Nat} {f : Failure}
    (h : (c.conclude winner r s).1 = .error f) :
    (c.conclude winner r s).2.files = s.files := by
  unfold conclude at h ⊢
  dsimp only at h ⊢
  split at h
  · cases h
  · split at h
    · cases h
    · split at h
      · rename_i hsave
        exact Store.save_of_error hsave
      · cases h

/-- The ways in which saving a trial ends well. -/
inductive Concludes (c : Sweep) (winner : Nat) (r : Report) (s : Session σ) :
    Report → Session σ → Prop where
  | unnamed : (c.judge winner r).trials.find? (·.index == winner) = none →
      Concludes c winner r s (c.judge winner r) s
  | unsaved {t s'} : (c.judge winner r).trials.find? (·.index == winner) = some t → c.store = none →
      s'.files = s.files → Concludes c winner r s { c.judge winner r with winner := some t } s'
  | saved {t s' store} :
    (c.judge winner r).trials.find? (·.index == winner) = some t → c.store = some store →
      (store.save s.files t.layout).result = .ok () →
      s'.files = (store.save s.files t.layout).files →
      Concludes c winner r s { c.judge winner r with winner := some t, storeWritten := true } s'

theorem concludes_of_conclude {winner : Nat} (h : c.conclude winner r s = (.ok r', s')) :
    Concludes c winner r s r' s' := by
  unfold conclude at h
  dsimp only at h
  split at h
  · rename_i hfind
    cases h
    exact .unnamed hfind
  · rename_i t hfind
    split at h
    · rename_i hstore
      cases h
      exact .unsaved hfind hstore rfl
    · rename_i store hstore
      split at h
      · cases h
      · rename_i hsave
        cases h
        exact .saved hfind hstore hsave rfl

namespace Concludes

variable {winner : Nat} {t : Trial}

theorem report (h : Concludes c winner r s r' s') :
    ∃ chosen written, r' = { c.judge winner r with winner := chosen, storeWritten := written } := by
  cases h with
  | unnamed _ => exact ⟨_, _, rfl⟩
  | unsaved _ _ _ => exact ⟨_, _, rfl⟩
  | saved _ _ _ _ => exact ⟨_, _, rfl⟩

/-- A winner is the trial of the number that was named. -/
theorem find? (h : Concludes c winner r s r' s') (hr : r.winner = none) (ht : r'.winner = some t) :
    (c.judge winner r).trials.find? (·.index == winner) = some t := by
  cases h with
  | unnamed _ =>
      rw [judge, hr] at ht
      cases ht
  | unsaved hfind _ _ =>
      cases ht
      exact hfind
  | saved hfind _ _ _ =>
      cases ht
      exact hfind

/-- A store that a sweep has holds the layout of the winner. -/
theorem save (h : Concludes c winner r s r' s') (hr : r.winner = none) (ht : r'.winner = some t)
    {store : Store} (hstore : c.store = some store) :
    (store.save s.files t.layout).result = .ok () ∧ s'.files = (store.save s.files t.layout).files
      ∧ r'.storeWritten = true := by
  cases h with
  | unnamed _ =>
      rw [judge, hr] at ht
      cases ht
  | unsaved _ hnone _ =>
      rw [hstore] at hnone
      cases hnone
  | saved _ hsome hsave hfiles =>
      rw [hstore] at hsome
      cases hsome
      cases ht
      exact ⟨hsave, hfiles, rfl⟩

/-- A layout was saved if and only if there are a store and a winner. -/
theorem written_iff (h : Concludes c winner r s r' s') (hr : r.winner = none)
    (hw : r.storeWritten = false) :
    r'.storeWritten = true ↔ c.store.isSome = true ∧ r'.winner.isSome = true := by
  cases h with
  | unnamed _ => simp [judge, hr, hw]
  | unsaved _ hnone _ => simp [judge, hnone, hw]
  | saved _ hsome _ _ => simp [hsome]

theorem files_of_unwritten (h : Concludes c winner r s r' s') (hw : r'.storeWritten = false) :
    s'.files = s.files := by
  cases h with
  | unnamed _ => rfl
  | unsaved _ _ hfiles => exact hfiles
  | saved _ _ _ _ => cases hw

end Concludes

/-! ## The choice as a whole -/

/-- A consultation, and a layout that is saved, are what choosing does to the world. -/
theorem deeds_finalize (c : Sweep) (s : Session σ) (h : r.delivered ≠ 0) :
    (c.finalize r s).2.sink = s.sink ∧ ∃ (n : Nat) (saved : Option Layout),
      (c.finalize r s).2.deeds = s.deeds ++ (c.consultation r n ++ saved.toList.map .saved) := by
  obtain ⟨-, hsink, n, hn⟩ := deeds_pick c r s
  rw [finalize_eq h]
  cases hpick : c.pick r s with
  | mk o s₁ =>
      rw [hpick] at hsink hn
      have hnone : s₁.deeds
          = s.deeds ++ (c.consultation r n ++ (none : Option Layout).toList.map .saved) :=
        hn.trans (congrArg _ (List.append_nil _).symm)
      cases o with
      | error f => exact ⟨hsink, n, none, hnone⟩
      | ok choice =>
          cases choice with
          | gaveUp => exact ⟨hsink, n, none, (Session.deeds_warn _ _).trans hnone⟩
          | interrupted => exact ⟨hsink, n, none, (Session.deeds_info _ _).trans hnone⟩
          | picked index =>
              obtain ⟨hsink', saved, hsaved⟩ := deeds_conclude c index r s₁
              refine ⟨hsink'.trans hsink, n, saved, ?_⟩
              rw [← List.append_assoc, ← hn]
              exact hsaved

/-- The parts of a choice are all that choosing does to the world. -/
theorem choosing_finalize (c : Sweep) (r : Report) (s : Session σ) :
    ∃ rest, (c.finalize r s).2.deeds = s.deeds ++ rest ∧ ∀ e ∈ rest, e.isChoosing = true := by
  by_cases h : r.delivered = 0
  · rw [finalize_of_undelivered h]
    exact ⟨[], (Session.deeds_warn s _).trans (List.append_nil _).symm, fun e he => nomatch he⟩
  · obtain ⟨-, n, saved, hdeeds⟩ := deeds_finalize c s h
    refine ⟨_, hdeeds, ?_⟩
    intro e he
    cases List.mem_append.mp he with
    | inl he =>
        rcases mem_consultation he with rfl | rfl
        · rfl
        · rfl
    | inr he =>
        obtain ⟨l, -, rfl⟩ := List.mem_map.mp he
        rfl

/-- Choosing offers nothing to the sink. -/
theorem offers_finalize (c : Sweep) (r : Report) (s : Session σ) :
    (c.finalize r s).2.offers = s.offers := by
  obtain ⟨rest, hdeeds, hrest⟩ := choosing_finalize c r s
  refine Session.filterMap_journal_of_deeds hdeeds (fun _ => rfl) ?_
  intro e he
  exact Event.offer?_of_isChoosing (hrest e he)

/-- An operator who chooses among delivered trials is shown them. -/
theorem presentations_finalize (s : Session σ) (hselection : c.selection = .interactive)
    (h : r.delivered ≠ 0) :
    (c.finalize r s).2.presentations = s.presentations ++ [r.trials.filter Trial.delivered] := by
  obtain ⟨-, n, saved, hdeeds⟩ := deeds_finalize c s h
  have hpresented : (s.record (.presented (r.trials.filter Trial.delivered))).presentations
      = s.presentations ++ [r.trials.filter Trial.delivered] := by
    rw [Session.presentations, Session.journal_record, List.filterMap_append]
    rfl
  rw [← hpresented]
  have hsplit : (c.finalize r s).2.deeds
      = (s.record (.presented (r.trials.filter Trial.delivered))).deeds
      ++ (List.replicate n (.asked question) ++ saved.toList.map .saved) := by
    rw [hdeeds, Session.deeds_record rfl, consultation, hselection, List.append_assoc]
    rfl
  refine Session.filterMap_journal_of_deeds hsplit (fun _ => rfl) ?_
  intro e he
  cases List.mem_append.mp he with
  | inl he =>
      rw [List.eq_of_mem_replicate he]
      rfl
  | inr he =>
      obtain ⟨l, -, rfl⟩ := List.mem_map.mp he
      rfl

/-- A choice that fails leaves the files as they are. -/
theorem files_finalize_of_error {f : Failure} (h : (c.finalize r s).1 = .error f) :
    (c.finalize r s).2.files = s.files := by
  by_cases hd : r.delivered = 0
  · rw [finalize_of_undelivered hd] at h
    cases h
  · obtain ⟨hfiles, -, -⟩ := deeds_pick c r s
    rw [finalize_eq hd] at h ⊢
    cases hpick : c.pick r s with
    | mk o s₁ =>
        rw [hpick] at h hfiles
        cases o with
        | error _ => exact hfiles
        | ok choice =>
            cases choice with
            | gaveUp => cases h
            | interrupted => cases h
            | picked index => exact (files_conclude_of_error h).trans hfiles

/-- The ways in which choosing ends well. -/
inductive Finalizes (c : Sweep) (r : Report) (s : Session σ) : Report → Session σ → Prop where
  /-- No trial was named. -/
  | unchosen {s' : Session σ} : s'.files = s.files → Finalizes c r s r s'
  /-- Everything was to stop before the operator named a trial. -/
  | interrupted {s' : Session σ} : c.selection = .interactive → s'.files = s.files →
      Finalizes c r s { r with cancelled := true } s'
  /-- A delivered trial was named. -/
  | concluded {index : Nat} {r' : Report} {s₁ s' : Session σ} :
      (∃ t ∈ r.trials, t.index = index ∧ t.delivered = true) → s₁.files = s.files →
      Concludes c index r s₁ r' s' → Finalizes c r s r' s'

theorem finalizes_of_finalize (h : c.finalize r s = (.ok r', s')) : Finalizes c r s r' s' := by
  by_cases hd : r.delivered = 0
  · rw [finalize_of_undelivered hd] at h
    cases h
    exact .unchosen rfl
  · rw [finalize_eq hd] at h
    obtain ⟨hfiles, -, -⟩ := deeds_pick c r s
    cases hpick : c.pick r s with
    | mk o s₁ =>
        rw [hpick] at h hfiles
        cases o with
        | error f => cases h
        | ok choice =>
            cases choice with
            | gaveUp =>
                cases h
                exact .unchosen hfiles
            | interrupted =>
                cases h
                exact .interrupted (interactive_of_interrupted (congrArg Prod.fst hpick)) hfiles
            | picked index =>
                exact .concluded (picked_delivered (congrArg Prod.fst hpick)) hfiles
                  (concludes_of_conclude h)

namespace Finalizes

/-- Choosing changes verdicts only. -/
theorem trials (h : Finalizes c r s r' s') :
    r'.trials.map Trial.unjudged = r.trials.map Trial.unjudged := by
  cases h with
  | unchosen _ => rfl
  | interrupted _ _ => rfl
  | concluded _ _ hconcludes =>
      obtain ⟨chosen, written, rfl⟩ := hconcludes.report
      exact unjudged_judge c _ r

theorem resizes (h : Finalizes c r s r' s') : r'.resizes = r.resizes := by
  cases h with
  | unchosen _ => rfl
  | interrupted _ _ => rfl
  | concluded _ _ hconcludes =>
      obtain ⟨chosen, written, rfl⟩ := hconcludes.report
      rfl

theorem uncancelled (h : Finalizes c r s r' s') (hr' : r'.cancelled = false) :
    r.cancelled = false := by
  cases h with
  | unchosen _ => exact hr'
  | interrupted _ _ => cases hr'
  | concluded _ _ hconcludes =>
      obtain ⟨chosen, written, rfl⟩ := hconcludes.report
      exact hr'

/-- A choice that is broken off leaves the report as it is. -/
theorem report_of_cancelled (h : Finalizes c r s r' s') (hr : r.cancelled = false)
    (hr' : r'.cancelled = true) :
    r' = { r with cancelled := true } := by
  cases h with
  | unchosen _ =>
      rw [hr] at hr'
      cases hr'
  | interrupted _ _ => rfl
  | concluded _ _ hconcludes =>
      obtain ⟨chosen, written, rfl⟩ := hconcludes.report
      rw [show (c.judge _ r).cancelled = r.cancelled from rfl, hr] at hr'
      cases hr'

/-- A layout was saved if and only if there are a store and a winner. -/
theorem written_iff (h : Finalizes c r s r' s') (hr : r.winner = none)
    (hw : r.storeWritten = false) :
    r'.storeWritten = true ↔ c.store.isSome = true ∧ r'.winner.isSome = true := by
  cases h with
  | unchosen _ => simp [hr, hw]
  | interrupted _ _ => simp [hr, hw]
  | concluded _ _ hconcludes => exact hconcludes.written_iff hr hw

theorem files_of_unwritten (h : Finalizes c r s r' s') (hw : r'.storeWritten = false) :
    s'.files = s.files := by
  cases h with
  | unchosen hfiles => exact hfiles
  | interrupted _ hfiles => exact hfiles
  | concluded _ hfiles hconcludes => exact (hconcludes.files_of_unwritten hw).trans hfiles

/-- Without an operator, choosing is not broken off. -/
theorem cancelled (h : Finalizes c r s r' s') (hselection : c.selection = .unattended) :
    r'.cancelled = r.cancelled := by
  cases h with
  | unchosen _ => rfl
  | interrupted hinteractive _ =>
      rw [hinteractive] at hselection
      cases hselection
  | concluded _ _ hconcludes =>
      obtain ⟨chosen, written, rfl⟩ := hconcludes.report
      rfl

/-- A winner is a trial with the verdict on it, and its number is that of a
delivered trial. -/
theorem winner {t : Trial} (h : Finalizes c r s r' s') (hr : r.winner = none)
    (ht : r'.winner = some t) :
    (∃ u ∈ r.trials, t = { u with verdict := c.verdict t.index u })
      ∧ (∃ u ∈ r.trials, u.index = t.index ∧ u.delivered = true)
      ∧ ∃ s₁ : Session σ, s₁.files = s.files ∧ Concludes c t.index r s₁ r' s' := by
  cases h with
  | unchosen _ =>
      rw [hr] at ht
      cases ht
  | interrupted _ _ =>
      rw [hr] at ht
      cases ht
  | concluded hnamed hfiles hconcludes =>
      have hfind := hconcludes.find? hr ht
      have hindex := List.find?_some hfind
      rw [beq_iff_eq] at hindex
      rw [hindex]
      exact ⟨mem_judge (List.mem_of_find?_eq_some hfind), hnamed, _, hfiles, hconcludes⟩

end Finalizes

/-- Unless a choice was saved, the files stay. -/
theorem files_finalize_of_unwritten
    (h : ∀ r', (c.finalize r s).1 = .ok r' → r'.storeWritten = false) :
    (c.finalize r s).2.files = s.files := by
  cases hfinalize : (c.finalize r s).1 with
  | error f => exact files_finalize_of_error hfinalize
  | ok r' =>
      exact (finalizes_of_finalize (Prod.ext hfinalize rfl)).files_of_unwritten (h r' hfinalize)

end Sweep

end Scanout
