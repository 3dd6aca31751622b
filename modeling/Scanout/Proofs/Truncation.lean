import Scanout.Proofs.Uninterrupted

/-!
# A stop only cuts a sweep short

A sweep that is interrupted does what it would have done, up to the stop.  With
or without a stop it makes a first part of the same attempts
(`Tries.prefix_attempts`), so its offers and its trials are the first of those
of the same sweep in an undisturbed session, and it has scaled for them and no
more.

No offer comes after the stop.  `Session.project` tells what has become of the
clock when the next frame is due, if nobody looks for the moment to stop: a stop
that a delivery asked for has come, and so has one that fell into the time for
which a frame stayed.  At every offer of a sweep the moment to stop had not come
(`Tries.in_time`).
-/

namespace Scanout

/-! ## One frame after the other -/

namespace Session

variable {σ : Type} [Sink σ] {s t u : Session σ} {frame : Encoded} {dwell : Nat}

/-- The session after a frame was offered and, if the sink took it, has stayed
for its time.  Nobody looks for the moment to stop. -/
def project (dwell : Nat) (s : Session σ) (frame : Encoded) : Session σ :=
  match s.offer frame with
  | (.ok (), t) => { t with clock := t.clock.advance dwell }
  | (.error _, t) => t

/-- Two sessions agree on all that a delivery and the clock depend on. -/
structure Agrees (s u : Session σ) : Prop where
  clock : u.clock = s.clock
  files : u.files = s.files
  sink : u.sink = s.sink

theorem Agrees.offer (h : s.Agrees u) (frame : Encoded) :
    (u.offer frame).1 = (s.offer frame).1 ∧ (s.offer frame).2.Agrees (u.offer frame).2 := by
  obtain ⟨hclock, hfiles, hsink⟩ := h
  unfold Session.offer
  rw [hclock, hfiles, hsink]
  exact ⟨rfl, rfl, rfl, rfl⟩

omit [Sink σ] in
/-- A line for the log does not matter. -/
theorem Agrees.note (h : s.Agrees u) (n : Note) : (s.note n).Agrees u := ⟨h.clock, h.files, h.sink⟩

theorem Agrees.project_of_ok (h : s.Agrees u) (ht : s.offer frame = (.ok (), t)) :
    Agrees { t with clock := t.clock.advance dwell } (u.project dwell frame) := by
  obtain ⟨hresult, hagrees⟩ := h.offer frame
  rw [ht] at hresult hagrees
  obtain ⟨hclock, hfiles, hsink⟩ := hagrees
  rw [project, show u.offer frame = (.ok (), (u.offer frame).2) from Prod.ext hresult rfl]
  exact ⟨congrArg (Clock.advance · dwell) hclock, hfiles, hsink⟩

theorem Agrees.project_of_error {e : Error} (h : s.Agrees u) (ht : s.offer frame = (.error e, t)) :
    t.Agrees (u.project dwell frame) := by
  obtain ⟨hresult, hagrees⟩ := h.offer frame
  rw [ht] at hresult hagrees
  rw [project, show u.offer frame = (.error e, (u.offer frame).2) from Prod.ext hresult rfl]
  exact hagrees

end Session

namespace Sweep

variable {σ : Type} [Sink σ] {c : Sweep} {frame : Frame} {l : Layout} {ls : List Layout}
  {index : Nat} {p q : Progress} {s s' t u : Session σ} {a : Attempt} {as : List Attempt}
  {o : Outcome Progress}

/-! ## Offers in time -/

namespace Offers

theorem running_of_agrees (h : Offers c frame l index p s a q t) (hu : s.Agrees u) :
    u.clock.stopped = false :=
  (congrArg Clock.stopped hu.clock).trans h.running

theorem project_of_error {e : Error} (h : Offers c frame l index p s a q t)
    (he : a.result = .error e)
    (hu : s.Agrees u) : t.Agrees (u.project c.dwell a.encoded) := by
  have hoffer := h.offer
  rw [he] at hoffer
  exact (hu.note _).project_of_error hoffer

theorem project_of_ok (h : Offers c frame l index p s a q t) (hok : a.result = .ok ())
    (hu : s.Agrees u) :
    Session.Agrees { t with clock := t.clock.advance c.dwell } (u.project c.dwell a.encoded) := by
  have hoffer := h.offer
  rw [hok] at hoffer
  exact (hu.note _).project_of_ok hoffer

end Offers

/-- When a frame is offered, the moment to stop has not come, even if nobody
looked for it before. -/
theorem Tries.in_time (h : Tries c frame ls index p s as o s') (hu : s.Agrees u) {i : Nat}
    (hi : i < as.length) :
    (((as.take i).map Attempt.encoded).foldl (Session.project c.dwell) u).clock.stopped
      = false := by
  induction h generalizing u i with
  | done => cases hi
  | stopped _ => cases hi
  | unready _ _ => cases hi
  | fatal hof _ _ =>
      rw [List.length_singleton] at hi
      obtain rfl := Nat.lt_one_iff.mp hi
      exact hof.running_of_agrees hu
  | refused hof hresult _ _ ih =>
      cases i with
      | zero => exact hof.running_of_agrees hu
      | succ i =>
          rw [List.take_succ_cons, List.map_cons, List.foldl_cons]
          exact ih ((hof.project_of_error hresult hu).note _) (Nat.lt_of_succ_lt_succ hi)
  | cut hof _ _ =>
      rw [List.length_singleton] at hi
      obtain rfl := Nat.lt_one_iff.mp hi
      exact hof.running_of_agrees hu
  | watched hof hresult hrace hrest ih =>
      cases i with
      | zero => exact hof.running_of_agrees hu
      | succ i =>
          rw [List.take_succ_cons, List.map_cons, List.foldl_cons]
          have hi := Nat.lt_of_succ_lt_succ hi
          rcases Clock.race_eq_reached_iff.mp hrace with ⟨-, rfl⟩ | ⟨htied, rest, -, rfl⟩
          · -- The frame stayed for its whole time, so the clock is where it is
            -- if nobody looks at it.
            exact ih ((hof.project_of_ok hresult hu).note _) hi
          · -- The moment to stop has come, so no frame is offered after this one.
            rw [hrest.nil_of_stopped htied.stopped_advance] at hi
            cases hi

/-! ## With and without a stop -/

/-- Whenever everything is to stop, a sweep offers a first part of the frames
that it offers in an undisturbed session, and nothing once the moment to stop
has come.  The trials that it reports, broken off or not, are the first of the
trials there, but for the verdicts, and it scaled once for each key among their
layouts. -/
theorem interrupt_truncates (hbuilt : c.Built) (hlenient : Sink.Lenient s.sink s.files)
    (frame : Frame) :
    ∃ offers whole : List (Encoded × Except Error Unit),
      (c.run frame s).2.offers = s.offers ++ offers
      ∧ (c.run frame s.undisturbed).2.offers = s.offers ++ whole
      ∧ offers <+: whole
      ∧ (∀ i < offers.length,
          (((offers.take i).map Prod.fst).foldl (Session.project c.dwell) s).clock.stopped = false)
      ∧ ∃ p u, c.swept frame s.undisturbed = (.ok p, u)
        ∧ (∀ r, (c.run frame s.undisturbed).1 = .ok r →
            r.trials.map Trial.unjudged = p.report.trials)
        ∧ ∀ r, (c.run frame s).1 = .ok r →
            r.trials.map Trial.unjudged <+: p.report.trials ∧ r.trials.length = offers.length
            ∧ r.resizes = scalings (c.plan.take offers.length) := by
  obtain ⟨p, u, hswept, htrials, hwhole⟩ := swept_undisturbed hbuilt hlenient frame
  obtain ⟨as, htries⟩ := c.swept_tries frame s
  have hfirst := htries.prefix_attempts Progress.sound_empty
  refine ⟨as.map fun a => (a.encoded, a.result), _, ?_, ?_, hfirst.map _, ?_, p, u, hswept, ?_, ?_⟩
  · rw [offers_run, htries.offers, Session.offers_info]
  · rw [offers_run, hswept]
    exact hwhole
  · intro i hi
    rw [List.length_map] at hi
    have htime := htries.in_time (u := s) ⟨rfl, rfl, rfl⟩ hi
    rw [← List.map_take, List.map_map]
    exact htime
  · intro r hr
    obtain ⟨bs, hbs⟩ := c.swept_tries frame s.undisturbed
    have hreports := hbs.reports_run rfl hr
    rw [hswept] at hbs
    rw [hreports.trials, hbs.trials]
  · intro r hr
    have hr := htries.reports_run rfl hr
    refine ⟨?_, by rw [hr.length, List.length_map], ?_⟩
    · rw [hr.trials, htrials]
      exact numbered_mono hfirst 1
    · rw [hr.resizes_eq htries.layouts, List.length_map]

/-- A stop that comes while the sink refuses the first of two frames leaves the
second out. -/
theorem interrupt_truncates_small :
    let s : Session ScriptedSink :=
      { sink := { failures := [(1, .sinkWriteFailure "device" "busy")], stopOn := some 1 } }
    smallSweep.Built ∧ Sink.Lenient s.sink s.files
      ∧ ∃ r, (smallSweep.run smallPicture s).1 = .ok r ∧ r.cancelled = true
        ∧ r.trials.length = 1 ∧ r.resizes = 1
        ∧ (smallSweep.run smallPicture s).2.offers
          <+: (smallSweep.run smallPicture s.undisturbed).2.offers
        ∧ (smallSweep.run smallPicture s.undisturbed).2.offers.length = 2 := by
  intro s
  have hlenient : Sink.Lenient s.sink s.files := ScriptedSink.lenient (by decide) s.files
  have hcancelled :
      (smallSweep.run smallPicture s).1.toOption.map Report.cancelled = some true := by
    decide +kernel
  have hone : (smallSweep.run smallPicture s).2.offers.length = 1 := by decide +kernel
  have htwo : (smallSweep.run smallPicture s.undisturbed).2.offers.length = 2 := by decide +kernel
  refine ⟨smallSweep_built, hlenient, ?_⟩
  obtain ⟨offers, whole, hoffers, hwhole, hfirst, -, p, u, -, -, hreport⟩ :=
    interrupt_truncates smallSweep_built hlenient smallPicture
  cases hrun : (smallSweep.run smallPicture s).1 with
  | error f =>
      rw [hrun] at hcancelled
      cases hcancelled
  | ok r =>
      rw [hrun] at hcancelled
      obtain ⟨-, hlength, hresizes⟩ := hreport r hrun
      have hoffered : offers.length = 1 := by
        rw [hoffers] at hone
        exact hone
      refine ⟨r, rfl, Option.some.inj hcancelled, hlength.trans hoffered, ?_, ?_, htwo⟩
      · rw [hresizes, hoffered]
        decide
      · rw [hoffers, hwhole]
        exact hfirst

end Sweep

end Scanout
