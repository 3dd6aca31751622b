import Scanout.Proofs.Choosing
import Scanout.Proofs.SweepRun

/-!
# How a run goes

A run tries the layouts of its plan (`Sweep.swept`), then lets the sink clean
up, and then chooses.  An error of the sink ends it after the clean-up
(`Sweep.run_of_swept_eq_error`), and a sweep that is cancelled by then does not
choose (`Sweep.run_of_swept_eq_ok`).  Read backwards, a run that yields a report
is one of the two (`Sweep.run_eq_ok`).

Between trying and choosing nothing happens but the clean-up.  The lemmas on
closing say so for the deeds, the offers, the files and every view of the
journal.
-/

namespace Scanout

namespace Sweep

variable {σ : Type} [Sink σ] {c : Sweep} {frame : Frame} {p : Progress}

/-- The layouts of the plan are tried. -/
def swept (c : Sweep) (frame : Frame) (s : Session σ) : Outcome Progress × Session σ :=
  c.tryAll frame c.plan 1 {} (s.info (c.opening s))

theorem swept_tries (c : Sweep) (frame : Frame) (s : Session σ) :
    ∃ as, Tries c frame c.plan 1 {} (s.info (c.opening s)) as (c.swept frame s).1
      (c.swept frame s).2 :=
  c.tryAll_tries frame c.plan 1 {} _

/-- The moment to stop came, and was seen, while layouts were still tried. -/
def CutShort (c : Sweep) (frame : Frame) (s : Session σ) : Prop :=
  ∃ p t, c.swept frame s = (.ok p, t) ∧ p.report.cancelled = true

variable {s t : Session σ}

theorem run_eq (c : Sweep) (frame : Frame) (s : Session σ) :
    c.run frame s = match c.swept frame s with
      | (.error (.error e), t) => (.error (.error e), t.cleanUp)
      | (.error f, t) => (.error f, t)
      | (.ok p, t) =>
          if p.report.cancelled then (.ok p.report, t.cleanUp.info p.report.summary)
          else c.finalize p.report (t.cleanUp.info p.report.summary) := rfl

/-- Once the layouts were tried, the sink cleans up, and then a trial is chosen
unless the sweep is cancelled. -/
theorem run_of_swept_eq_ok (h : c.swept frame s = (.ok p, t)) :
    c.run frame s = if p.report.cancelled then (.ok p.report, t.cleanUp.info p.report.summary)
      else c.finalize p.report (t.cleanUp.info p.report.summary) := by
  rw [run_eq, h]

theorem run_of_swept_eq_error {e : Error} (h : c.swept frame s = (.error (.error e), t)) :
    c.run frame s = (.error (.error e), t.cleanUp) := by
  rw [run_eq, h]

/-- A run that yields a report has tried its layouts to the end.  It was
cancelled by then, or it went on to choose. -/
theorem run_eq_ok {r : Report} {s' : Session σ} (h : c.run frame s = (.ok r, s')) :
    ∃ p t, c.swept frame s = (.ok p, t)
      ∧ (p.report.cancelled = true ∧ r = p.report ∧ s' = t.cleanUp.info p.report.summary
        ∨ p.report.cancelled = false
          ∧ c.finalize p.report (t.cleanUp.info p.report.summary) = (.ok r, s')) := by
  rw [run_eq] at h
  cases hswept : c.swept frame s with
  | mk o t =>
      rw [hswept] at h
      cases o with
      | error f =>
          cases f with
          | error e => cases h
          | fault => cases h
          | stalled => cases h
      | ok p =>
          refine ⟨p, t, rfl, ?_⟩
          dsimp only at h
          split at h
          · rename_i hp
            cases h
            exact .inl ⟨hp, rfl, rfl⟩
          · rename_i hp
            exact .inr ⟨Bool.eq_false_iff.mpr hp, h⟩

/-- After its layouts were tried, a run lets the sink clean up and writes a line
to the log. -/
theorem deeds_closing (t : Session σ) (text : String) :
    (t.cleanUp.info text).deeds = t.deeds ++ [.cleanedUp] := by
  rw [Session.deeds_info, Session.deeds_cleanUp]

theorem offers_closing (t : Session σ) (text : String) :
    (t.cleanUp.info text).offers = t.offers := by
  rw [Session.offers_info, Session.offers_cleanUp]

/-- A run offers what it offers while it tries layouts. -/
theorem offers_run (c : Sweep) (frame : Frame) (s : Session σ) :
    (c.run frame s).2.offers = (c.swept frame s).2.offers := by
  rw [run_eq]
  rcases c.swept frame s with ⟨(e | _ | _) | p, t⟩
  · exact t.offers_cleanUp
  · rfl
  · rfl
  · dsimp only
    split
    · exact offers_closing t _
    · rw [offers_finalize, offers_closing]

/-- When the sink has cleaned up, the files are what the sink made of them. -/
theorem reaches_closing {as : List Attempt} {o : Outcome Progress}
    (h : Tries c frame c.plan 1 {} (s.info (c.opening s)) as o t) :
    Sink.Reaches s.sink s.files t.cleanUp.sink t.cleanUp.files := by
  rw [Session.sink_cleanUp, Session.files_cleanUp]
  exact .cleanUp h.reaches

/-- When the sink has cleaned up, a view that asks neither for offers nor for
clean-ups is as it was before the run. -/
theorem view_closing {as : List Attempt} {o : Outcome Progress}
    (h : Tries c frame c.plan 1 {} (s.info (c.opening s)) as o t) (text : String) {α : Type}
    {view : Event → Option α} (hnoted : ∀ n, view (.noted n) = none)
    (hoffered : ∀ e result, view (.offered e result) = none) (hcleanedUp : view .cleanedUp = none) :
    (t.cleanUp.info text).journal.filterMap view = s.journal.filterMap view := by
  have hdeeds : (t.cleanUp.info text).deeds = s.deeds ++ (as.map Attempt.deed ++ [.cleanedUp]) := by
    rw [deeds_closing, h.deeds, Session.deeds_info, List.append_assoc]
  refine Session.filterMap_journal_of_deeds hdeeds hnoted ?_
  intro e he
  cases List.mem_append.mp he with
  | inl he =>
      obtain ⟨a, -, rfl⟩ := List.mem_map.mp he
      exact hoffered a.encoded a.result
  | inr he =>
      rw [List.mem_singleton.mp he]
      exact hcleanedUp

end Sweep

end Scanout
