import Scanout.Proofs.Runs
import Scanout.Proofs.SweepPlan

/-!
# A sweep cannot fail by itself and always cleans up

Whoever sets a sweep up gets layouts that pass the check, and such a layout can
always be scaled and encoded.  What is left to fail while layouts are tried is
the sink: it may refuse a frame for good (`Sweep.swept_error`).

However trying layouts ends, the run then lets the sink clean up, and chooses
only after that.  So in the deeds of a run one clean-up stands after all offers
and before all that belongs to the choice (`Sweep.deeds_run`).
-/

namespace Scanout

theorem Session.cleanUps_eq {σ : Type} (s : Session σ) :
    s.cleanUps = s.deeds.countP Event.isCleanUp := by
  rw [cleanUps, deeds, List.countP_filter]
  congr 1
  funext e
  cases e <;> rfl

namespace Sweep

variable {σ : Type} [Sink σ] {c : Sweep} {frame : Frame} {s t : Session σ} {as : List Attempt}

/-- A layout that passes the check can be scaled and encoded. -/
theorem exists_fresh_eq_ok (c : Sweep) (frame : Frame) {l : Layout} (hl : l.check = .ok ()) :
    ∃ e, c.fresh frame l = .ok e := by
  obtain ⟨f, e, hresize, hencode⟩ := frame.resize_encode_eq_ok c.filter hl
  exact ⟨e, bind_eq_ok.mpr ⟨f, hresize, hencode⟩⟩

/-- Trying the layouts of a plan fails only when the sink refuses a frame for
good, and that offer is the last. -/
theorem swept_error (hbuilt : c.Built) {f : Failure} (h : (c.swept frame s).1 = .error f) :
    ∃ offers encoded e, f = .error e ∧ e.skippable = false
      ∧ (c.swept frame s).2.offers = s.offers ++ (offers ++ [(encoded, .error e)]) := by
  obtain ⟨as, htries⟩ := c.swept_tries frame s
  have hoffers := htries.offers
  rw [h] at htries
  obtain ⟨a, e, hlast, hresult, hskip, rfl⟩ :=
    htries.error Progress.sound_empty fun l hl => hbuilt.check hl
  obtain ⟨before, rfl⟩ := List.getLast?_eq_some_iff.mp hlast
  refine ⟨before.map fun a => (a.encoded, a.result), a.encoded, e, rfl, hskip, ?_⟩
  rw [hoffers, Session.offers_info, List.map_append, ← hresult]
  rfl

/-- Between the offers of a run and its choice, if there is one, the sink cleans up. -/
theorem deeds_run (hbuilt : c.Built) (frame : Frame) (s : Session σ) :
    ∃ (as : List Attempt) (rest : List Event),
      (c.run frame s).2.deeds = s.deeds ++ (as.map Attempt.deed ++ .cleanedUp :: rest)
        ∧ ∀ e ∈ rest, e.isChoosing = true := by
  obtain ⟨as, htries⟩ := c.swept_tries frame s
  have hdeeds : (c.swept frame s).2.cleanUp.deeds
      = s.deeds ++ (as.map Attempt.deed ++ [.cleanedUp]) := by
    rw [Session.deeds_cleanUp, htries.deeds, Session.deeds_info, List.append_assoc]
  refine ⟨as, ?_⟩
  cases hswept : c.swept frame s with
  | mk o t =>
      rw [hswept] at hdeeds
      cases o with
      | error f =>
          obtain ⟨-, -, e, rfl, -⟩ := swept_error hbuilt (congrArg Prod.fst hswept)
          rw [run_of_swept_eq_error hswept]
          exact ⟨[], hdeeds, fun e he => nomatch he⟩
      | ok p =>
          have hclosing := (Session.deeds_info t.cleanUp p.report.summary).trans hdeeds
          rw [run_of_swept_eq_ok hswept]
          split
          · exact ⟨[], hclosing, fun e he => nomatch he⟩
          · obtain ⟨rest, hrest, hchoosing⟩ :=
              choosing_finalize c p.report (t.cleanUp.info p.report.summary)
            refine ⟨rest, ?_, hchoosing⟩
            rw [hrest, hclosing, List.append_assoc, List.append_assoc, List.singleton_append]

/-- In a sweep that was set up, every layout of the plan passes the check and
can be scaled and encoded.  Trying them fails only with an error of the sink
that no loop steps over, and that error is the run's.  However a run ends, the
sink has cleaned up once: after the last offer, and before trials are shown, a
question is asked or a layout is saved. -/
theorem cleans_up_once {candidates : Option Candidates} {layouts : List Layout}
    (hplan : planOf candidates layouts = .ok c.plan) (frame : Frame) (s : Session σ) :
    (∀ l ∈ c.plan, l.check = .ok () ∧ ∃ e, c.fresh frame l = .ok e)
      ∧ (∀ f, (c.swept frame s).1 = .error f → ∃ offers encoded e, f = .error e
        ∧ e.skippable = false
          ∧ (c.swept frame s).2.offers = s.offers ++ (offers ++ [(encoded, .error e)])
          ∧ (c.run frame s).1 = .error (.error e))
      ∧ (c.run frame s).2.cleanUps = s.cleanUps + 1
      ∧ ∃ (offers : List (Encoded × Except Error Unit)) (rest : List Event),
          (c.run frame s).2.deeds
            = s.deeds ++ (offers.map (fun o => .offered o.1 o.2) ++ .cleanedUp :: rest)
            ∧ ∀ e ∈ rest, e.isChoosing = true := by
  have hbuilt : c.Built := ⟨candidates, layouts, hplan⟩
  obtain ⟨as, rest, hdeeds, hrest⟩ := deeds_run hbuilt frame s
  refine ⟨?_, ?_, ?_, as.map (fun a => (a.encoded, a.result)), rest, ?_, hrest⟩
  · intro l hl
    exact ⟨hbuilt.check hl, c.exists_fresh_eq_ok frame (hbuilt.check hl)⟩
  · intro f hf
    obtain ⟨offers, encoded, e, rfl, hskip, hoffers⟩ := swept_error hbuilt hf
    exact ⟨offers, encoded, e, rfl, hskip, hoffers,
      congrArg Prod.fst (run_of_swept_eq_error (Prod.ext hf rfl))⟩
  · have hoffers : (as.map Attempt.deed).countP Event.isCleanUp = 0 := by
      rw [List.countP_map, List.countP_eq_zero]
      exact fun a _ => Bool.false_ne_true
    have hchoice : rest.countP Event.isCleanUp = 0 := by
      rw [List.countP_eq_zero]
      exact fun e he => by simp [Event.isCleanUp_of_isChoosing (hrest e he)]
    rw [Session.cleanUps_eq, Session.cleanUps_eq, hdeeds, List.countP_append, List.countP_append,
      hoffers, List.countP_cons_of_pos rfl, hchoice]
  · rw [hdeeds, List.map_map]
    rfl

/-- A sink that refuses the second frame for good ends the run, and has cleaned up. -/
theorem cleans_up_once_small :
    let s : Session ScriptedSink := { sink := { failures := [(2, .io "writing" "gone")] } }
    planOf none smallSweep.plan = .ok smallSweep.plan
      ∧ (smallSweep.run smallPicture s).1 = .error (.error (.io "writing" "gone"))
      ∧ (smallSweep.run smallPicture s).2.cleanUps = 1 := by
  intro s
  have hplan : planOf none smallSweep.plan = .ok smallSweep.plan := rfl
  have hfailed : (smallSweep.swept smallPicture s).1.toOption.isNone = true := by decide +kernel
  have hlast : (smallSweep.swept smallPicture s).2.offers.getLast?.map Prod.snd
      = some (.error (.io "writing" "gone")) := by decide +kernel
  obtain ⟨-, herror, honce, -⟩ := cleans_up_once (c := smallSweep) hplan smallPicture s
  refine ⟨hplan, ?_, honce⟩
  cases hswept : (smallSweep.swept smallPicture s).1 with
  | ok p =>
      rw [hswept] at hfailed
      cases hfailed
  | error f =>
      obtain ⟨offers, encoded, e, -, -, hoffers, hrun⟩ := herror f hswept
      rw [hoffers, ← List.append_assoc, List.getLast?_concat] at hlast
      cases hlast
      exact hrun

end Sweep

end Scanout
