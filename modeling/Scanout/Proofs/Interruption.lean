import Scanout.Proofs.Runs
import Scanout.Proofs.SweepPlan

/-!
# When a stop breaks a sweep off

A sweep looks for the moment to stop before it offers a frame and while a frame
stays.  A stop that comes by then breaks it off: nothing is chosen, and the
operator and the store are left alone (`Sweep.BrokenOff`).

Two ways are left for a stop to be overlooked, and both are open to the last
layout only, after which nobody looks again.

* A frame that the sink refuses does not stay, so a stop that comes while the
  sink refuses the last one is not seen (`Sweep.LastRefused`).
* A frame may have stayed for its time just when the stop comes.  A frame that
  is to stay for no time is such a case whenever the stop comes while the sink
  takes it.  If the tie is settled against the stop, and the frame is the last,
  the stop is not seen either (`Sweep.LastOutran`).  How ties are settled is not
  up to the sweep; its clock brings a schedule with it.

There is no third way, for every sweep that was set up, every picture, every
sink, every moment to stop and every schedule of ties (`Sweep.breaksOff_iff`).
After the stop was overlooked, the sweep goes on to choose.  Without an operator
it then saves the layout of its choice, and with one it shows the trials before
it looks for the stop again.
-/

namespace Scanout

namespace Sweep

variable {σ : Type} [Sink σ] {c : Sweep} {frame : Frame} {s s' : Session σ} {r : Report}

/-- The report is that of a sweep that was broken off.  Nothing was chosen, the
operator was not consulted, and all that happened to the files is what the sink
did to them. -/
structure BrokenOff (s : Session σ) (r : Report) (s' : Session σ) : Prop where
  cancelled : r.cancelled = true
  winner : r.winner = none
  unwritten : r.storeWritten = false
  unrated : ∀ t ∈ r.trials, t.verdict = .unrated
  presentations : s'.presentations = s.presentations
  questions : s'.questions = s.questions
  answers : s'.answers = s.answers
  saves : s'.saves = s.saves
  reaches : Sink.Reaches s.sink s.files s'.sink s'.files

/-- The run breaks off. -/
def BreaksOff (c : Sweep) (frame : Frame) (s : Session σ) : Prop :=
  ∃ r s', c.run frame s = (.ok r, s') ∧ BrokenOff s r s'

/-- All layouts were tried, and the sink refused the last. -/
def LastRefused (c : Sweep) (r : Report) : Prop :=
  r.trials.length = c.plan.length ∧ ∃ t ∈ r.trials.getLast?, t.delivered = false

/-- All layouts were tried, the sink took the last, and its frame outran the
stop on the way from one session to the other. -/
def LastOutran (c : Sweep) (s t : Session σ) (r : Report) : Prop :=
  r.trials.length = c.plan.length ∧ (∃ t ∈ r.trials.getLast?, t.delivered = true) ∧ c.Outruns s t

section Last

variable {as : List Attempt}

/-- The last trial of a report is that of the last attempt. -/
theorem delivered_getLast?_iff {a : Attempt} (h : r.trials = numbered 1 as)
    (ha : as.getLast? = some a) (b : Bool) :
    (∃ t ∈ r.trials.getLast?, t.delivered = b) ↔ (a.result = .ok () ↔ b = true) := by
  rw [h, getLast?_numbered, ha, ← a.delivered_trial (1 + (as.length - 1)), ← Bool.eq_iff_iff]
  simp

omit [Sink σ] in
/-- All layouts were attempted, and the last frame was refused or outran the stop. -/
theorem overlooked_iff {t : Session σ} (h : r.trials = numbered 1 as) (hplan : c.plan ≠ []) :
    c.LastRefused r ∨ c.LastOutran s t r
      ↔ as.length = c.plan.length
        ∧ ((∀ a ∈ as.getLast?, a.result ≠ .ok ()) ∨ c.Outruns s t) := by
  rw [LastRefused, LastOutran, ← and_or_left, h, length_numbered, ← h]
  refine and_congr_right fun hlength => ?_
  have hne : as ≠ [] := by
    rintro rfl
    exact hplan (List.length_eq_zero_iff.mp hlength.symm)
  obtain ⟨a, ha⟩ := Option.isSome_iff_exists.mp (List.getLast?_isSome.mpr hne)
  rw [delivered_getLast?_iff h ha, delivered_getLast?_iff h ha, ha]
  by_cases hok : a.result = .ok ()
  · simp [hok]
  · simp [hok]

end Last

/-! ## Choosing is not breaking off -/

/-- A sweep that goes on to choose does not break off, whether or not there is
an operator. -/
theorem not_brokenOff_of_finalize {t : Session σ} {q : Report} (hq : q.cancelled = false)
    (hshown : t.presentations = s.presentations) (h : c.finalize q t = (.ok r, s')) :
    ¬ BrokenOff s r s' := by
  intro hbroken
  by_cases hd : q.delivered = 0
  · rw [finalize_of_undelivered hd] at h
    cases h
    rw [hbroken.cancelled] at hq
    cases hq
  · cases hselection : c.selection with
    | unattended =>
        rw [← (finalizes_of_finalize h).cancelled hselection, hbroken.cancelled] at hq
        cases hq
    | interactive =>
        have hmore := presentations_finalize t hselection hd
        rw [h, hshown, hbroken.presentations] at hmore
        have hlength := congrArg List.length hmore
        rw [List.length_append, List.length_singleton] at hlength
        omega

/-! ## Breaking off -/

/-- A sweep that is cancelled when its layouts were tried breaks off. -/
theorem brokenOff_of_cancelled {p : Progress} {as : List Attempt} {t : Session σ} (text : String)
    (h : Tries c frame c.plan 1 {} (s.info (c.opening s)) as (.ok p) t)
    (hp : p.report.cancelled = true) :
    BrokenOff s p.report (t.cleanUp.info text) := by
  obtain ⟨hwinner, hunwritten, hunrated⟩ := h.unchosen
  constructor
  · exact hp
  · exact hwinner
  · exact hunwritten
  · exact hunrated
  · exact view_closing h text (fun _ => rfl) (fun _ _ => rfl) rfl
  · exact view_closing h text (fun _ => rfl) (fun _ _ => rfl) rfl
  · exact t.answers_cleanUp.trans h.answers
  · exact view_closing h text (fun _ => rfl) (fun _ _ => rfl) rfl
  · exact reaches_closing h

/-- Where everything is to stop by the time the layouts were tried, the sink may
have refused one for good.  Otherwise the sweep breaks off, unless all layouts
were tried and the sink refused the last or its frame outran the stop: then it
goes on to choose. -/
theorem breaksOff_iff (hbuilt : c.Built) (hstop : (c.swept frame s).2.clock.stopped = true) :
    (∃ encoded e, e.skippable = false
        ∧ (c.swept frame s).2.offers.getLast? = some (encoded, .error e)
        ∧ c.run frame s = (.error (.error e), (c.swept frame s).2.cleanUp))
      ∨ ∃ p, (c.swept frame s).1 = .ok p
        ∧ (c.BreaksOff frame s
          ↔ ¬ (c.LastRefused p.report ∨ c.LastOutran s (c.swept frame s).2 p.report))
        ∧ (c.LastRefused p.report ∨ c.LastOutran s (c.swept frame s).2 p.report →
          c.run frame s
            = c.finalize p.report ((c.swept frame s).2.cleanUp.info p.report.summary)) := by
  obtain ⟨as, htries⟩ := c.swept_tries frame s
  cases hswept : c.swept frame s with
  | mk o t =>
      rw [hswept] at htries hstop
      dsimp only at htries hstop ⊢
      cases o with
      | error f =>
          obtain ⟨a, e, hlast, hresult, hskip, rfl⟩ :=
            htries.error Progress.sound_empty fun l hl => hbuilt.check hl
          refine .inl ⟨a.encoded, e, hskip, ?_, run_of_swept_eq_error hswept⟩
          rw [htries.offers, List.getLast?_append, List.getLast?_map, hlast, ← hresult]
          rfl
      | ok p =>
          refine .inr ⟨p, rfl, ?_⟩
          have hgoesOn : p.report.cancelled = false
              ↔ c.LastRefused p.report ∨ c.LastOutran s t p.report :=
            (htries.interrupted Progress.sound_empty rfl hstop).trans
              (overlooked_iff htries.trials hbuilt.ne_nil).symm
          rw [← hgoesOn]
          have hrun := run_of_swept_eq_ok hswept
          cases hcancelled : p.report.cancelled with
          | true =>
              rw [hcancelled, if_pos rfl] at hrun
              have hbreaks : c.BreaksOff frame s :=
                ⟨_, _, hrun, brokenOff_of_cancelled _ htries hcancelled⟩
              exact ⟨⟨fun _ => nofun, fun _ => hbreaks⟩, fun h => nomatch h⟩
          | false =>
              rw [hcancelled, if_neg Bool.false_ne_true] at hrun
              refine ⟨⟨?_, ?_⟩, fun _ => hrun⟩
              · rintro ⟨r, s', hbreaks, hbroken⟩
                have hshown : (t.cleanUp.info p.report.summary).presentations
                    = s.presentations :=
                  view_closing htries p.report.summary (fun _ => rfl) (fun _ _ => rfl) rfl
                exact absurd hbroken
                  (not_brokenOff_of_finalize hcancelled hshown (hrun.symm.trans hbreaks))
              · exact fun h => absurd rfl h

/-- A stop that comes while the sink refuses the first of two layouts breaks the
sweep off. -/
theorem breaksOff_small :
    let s : Session ScriptedSink :=
      { sink := { failures := [(1, .sinkWriteFailure "script" "busy")], stopOn := some 1 } }
    smallSweep.Built ∧ (smallSweep.swept smallPicture s).2.clock.stopped = true
      ∧ smallSweep.BreaksOff smallPicture s := by
  intro s
  have hstop : (smallSweep.swept smallPicture s).2.clock.stopped = true := by decide +kernel
  have hok : (smallSweep.run smallPicture s).1.toOption.isSome = true := by decide +kernel
  have htrials :
      (smallSweep.swept smallPicture s).1.toOption.map (·.report.trials.length) = some 1 := by
    decide +kernel
  refine ⟨smallSweep_built, hstop, ?_⟩
  rcases breaksOff_iff smallSweep_built hstop with ⟨encoded, e, -, -, hrun⟩ | ⟨p, hswept, hiff, -⟩
  · rw [hrun] at hok
    cases hok
  · rw [hswept] at htrials
    refine hiff.mpr ?_
    have hone : p.report.trials.length = 1 := Option.some.inj htrials
    have hshort : p.report.trials.length ≠ smallSweep.plan.length := by
      rw [hone]
      decide
    rintro (hlast | hlast)
    · exact hshort hlast.1
    · exact hshort hlast.1

/-- A stop that comes while the sink takes the second of two layouts, whose
frames are to stay for no time, is lost as well if the tie is settled against
it. -/
example :
    let s : Session ScriptedSink := { sink := { stopOn := some 2 }, clock := { ties := [.wait] } }
    let c := { smallSweep with dwell := 0 }
    (c.run smallPicture s).1.toOption.map (fun r => (r.cancelled, r.storeWritten))
      = some (false, true) := by
  decide +kernel

/-- A stop that comes while the sink refuses the second of two layouts is lost:
the first is chosen and saved. -/
theorem stop_lost_at_last_refusal :
    let s : Session ScriptedSink :=
      { sink := { failures := [(2, .sinkWriteFailure "script" "busy")], stopOn := some 2 } }
    smallSweep.Built ∧ (smallSweep.swept smallPicture s).2.clock.stopped = true
      ∧ ∃ r, (smallSweep.run smallPicture s).1 = .ok r ∧ r.cancelled = false
        ∧ r.winner.map Trial.index = some 1 ∧ r.storeWritten = true
        ∧ (⟨"best"⟩ : Store).tryLoad (smallSweep.run smallPicture s).2.files
          = .ok (some smallLayout) := by
  intro s
  have hreport : (smallSweep.run smallPicture s).1.toOption.map
      (fun r => (r.cancelled, r.winner.map Trial.index, r.storeWritten))
        = some (false, some 1, true) := by
    decide +kernel
  refine ⟨smallSweep_built, by decide +kernel, ?_⟩
  cases hrun : (smallSweep.run smallPicture s).1 with
  | error f =>
      rw [hrun] at hreport
      cases hreport
  | ok r =>
      rw [hrun] at hreport
      have hfields := Option.some.inj hreport
      rw [Prod.mk.injEq, Prod.mk.injEq] at hfields
      exact ⟨r, rfl, hfields.1, hfields.2.1, hfields.2.2, by decide +kernel⟩

end Sweep

end Scanout
