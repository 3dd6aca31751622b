import Scanout.Proofs.Uninterrupted

/-!
# A refused frame costs its own trial

Whatever a sink refuses in a way that a loop steps over, it is offered the same
frames.  Two sinks are `Sink.Alike` if, after any deliveries, they refuse the
same frames for good: they differ at most in what a sweep steps over.  Sweeps
with two such sinks attempt the same layouts with the same frames
(`Sweep.attempts_alike`), and a sweep that is not cut short makes all its
attempts, however it ends (`Tries.eq_attempts`).

What a report tells of an attempt is the reason for its refusal, if there was
one, and nothing of the other attempts (`Reports.failures`).  So the two sweeps
differ only in the outcomes of the trials that one sink refused and the other
did not.
-/

namespace Scanout

/-! ## Sinks that differ in what they refuse -/

/-- The error with which a frame was refused for good. -/
def fatal? : Except Error Unit → Option Error
  | .ok () => none
  | .error e => if e.skippable then none else some e

theorem fatal?_eq_none_iff {result : Except Error Unit} :
    fatal? result = none ↔ ∀ e, result = .error e → e.skippable = true := by
  rcases result with e | u
  · simp [fatal?]
  · simp [fatal?]

namespace Sink

variable {σ τ : Type} [Sink σ] [Sink τ]

/-- The sink and the files after some deliveries. -/
def after (k : σ) (t : FileTree) : List Encoded → σ × FileTree
  | [] => (k, t)
  | frame :: frames => after (Sink.deliver k t frame).sink (Sink.deliver k t frame).files frames

theorem reaches_after (k : σ) (t : FileTree) (frames : List Encoded) :
    Reaches k t (after k t frames).1 (after k t frames).2 := by
  induction frames generalizing k t with
  | nil => exact .refl
  | cons frame frames ih => exact (Reaches.deliver frame .refl).trans (ih _ _)

/-- Whatever they were offered before, the two sinks refuse the same frames for
good, and with the same errors.  They may differ in the frames that they refuse
in a way that a loop steps over. -/
def Alike (k : σ) (t : FileTree) (k' : τ) (t' : FileTree) : Prop :=
  ∀ frames frame,
    fatal? (Sink.deliver (after k t frames).1 (after k t frames).2 frame).result
      = fatal? (Sink.deliver (after k' t' frames).1 (after k' t' frames).2 frame).result

variable {k : σ} {k' : τ} {t t' : FileTree}

theorem Alike.deliver (h : Alike k t k' t') (frame : Encoded) :
    Alike (Sink.deliver k t frame).sink (Sink.deliver k t frame).files
      (Sink.deliver k' t' frame).sink (Sink.deliver k' t' frame).files :=
  fun frames next => h (frame :: frames) next

/-- Sinks that refuse nothing for good are alike. -/
theorem Lenient.alike (h : Lenient k t) (h' : Lenient k' t') : Alike k t k' t' := by
  intro frames frame
  have hk : fatal? (Sink.deliver (after k t frames).1 (after k t frames).2 frame).result = none :=
    fatal?_eq_none_iff.mpr fun e => h _ _ frame e (reaches_after k t frames)
  have hk' :
      fatal? (Sink.deliver (after k' t' frames).1 (after k' t' frames).2 frame).result = none :=
    fatal?_eq_none_iff.mpr fun e => h' _ _ frame e (reaches_after k' t' frames)
  rw [hk, hk']

end Sink

namespace Sweep

variable {σ τ : Type} [Sink σ] [Sink τ] {c : Sweep} {frame : Frame} {ls : List Layout} {index : Nat}
  {p q : Progress} {s s' : Session σ} {a : Attempt} {as : List Attempt} {o : Outcome Progress}

/-! ## The same attempts -/

theorem Attempt.final_eq (a : Attempt) : a.final = (fatal? a.result).isSome := by
  unfold final fatal?
  rcases a.result with e | u
  · by_cases h : e.skippable = true
    · simp [h]
    · simp [h]
  · rfl

/-- What an attempt has whatever the sink refuses in a way that a loop steps over. -/
def Attempt.course (a : Attempt) : Layout × Encoded × Bool := (a.layout, a.encoded, a.final)

/-- With two sinks that are alike, a sweep attempts the same. -/
theorem attempts_alike {k : σ} {k' : τ} {t t' : FileTree} (h : Sink.Alike k t k' t')
    (ls : List Layout) :
    (c.attempts frame ls k t).map Attempt.course
      = (c.attempts frame ls k' t').map Attempt.course := by
  induction ls generalizing k k' t t' with
  | nil => rfl
  | cons l ls ih =>
      rw [attempts, attempts]
      cases c.fresh frame l with
      | error f => rfl
      | ok e =>
          let a : Attempt := ⟨l, e, (Sink.deliver k t e).result⟩
          let a' : Attempt := ⟨l, e, (Sink.deliver k' t' e).result⟩
          have hfinal : a.final = a'.final := by
            rw [a.final_eq, a'.final_eq]
            exact congrArg Option.isSome (h [] e)
          show a.course :: (if a.final then [] else _ : List Attempt).map Attempt.course
            = a'.course :: (if a'.final then [] else _ : List Attempt).map Attempt.course
          rw [show a.course = a'.course from congrArg (fun b => (l, e, b)) hfinal, ← hfinal]
          split
          · rfl
          · rw [ih (h.deliver e)]

namespace Tries

/-- A sweep is cancelled only when everything is to stop. -/
theorem stopped_of_cancelled (h : Tries c frame ls index p s as (.ok q) s') (hp : p.Sound c frame)
    (hstart : p.report.cancelled = false) (hq : q.report.cancelled = true) :
    s'.clock.stopped = true := by
  generalize ho : (Except.ok q : Outcome Progress) = o at h
  induction h with
  | done =>
      cases ho
      rw [hstart] at hq
      cases hq
  | stopped hstop => exact hstop
  | unready _ _ => cases ho
  | fatal _ _ _ => cases ho
  | refused hof _ _ _ ih =>
      obtain ⟨n, hreport⟩ := hof.report hp
      exact ih (hof.fresh hp).2 (by rw [hreport]; exact hstart) ho
  | cut _ _ hrace => exact Clock.stopped_of_race_eq_stopped hrace
  | watched hof _ _ _ ih =>
      obtain ⟨n, hreport⟩ := hof.report hp
      exact ih (hof.fresh hp).2 (by rw [hreport]; exact hstart) ho

/-- Trying layouts goes well unless one is refused for good. -/
theorem isOk_eq (h : Tries c frame ls index p s as o s') (hp : p.Sound c frame)
    (hls : ∀ l ∈ ls, l.check = .ok ()) : o.isOk = as.all (! ·.final) := by
  induction h with
  | done => rfl
  | stopped _ => rfl
  | unready _ hprepare =>
      obtain ⟨e, q, hok⟩ := exists_prepare_eq_ok hp (hls _ List.mem_cons_self)
      rw [hok] at hprepare
      cases hprepare
  | fatal _ hresult hskip => simp [Attempt.final, hresult, hskip, Except.isOk, Except.toBool]
  | refused hof hresult hskip _ ih =>
      rw [ih (hof.fresh hp).2 (List.forall_mem_cons.mp hls).2]
      simp [Attempt.final, hresult, hskip]
  | cut _ hresult _ => simp [Attempt.final, hresult, Except.isOk, Except.toBool]
  | watched hof hresult _ _ ih =>
      rw [ih (hof.fresh hp).2 (List.forall_mem_cons.mp hls).2]
      simp [Attempt.final, hresult]

end Tries

/-! ## Two sweeps -/

theorem Report.delivered_add_failed (r : Report) : r.delivered + r.failed = r.trials.length :=
  Nat.add_sub_of_le List.countP_le_length

/-- A run during which the moment to stop does not come is not cut short. -/
theorem not_cutShort_of_running (h : (c.swept frame s).2.clock.stopped = false) :
    ¬ c.CutShort frame s := by
  rintro ⟨p, t, hswept, hcancelled⟩
  obtain ⟨as, htries⟩ := c.swept_tries frame s
  rw [hswept] at htries h
  rw [htries.stopped_of_cancelled Progress.sound_empty rfl hcancelled] at h
  cases h

theorem uncancelled_of_not_cutShort (h : ¬ c.CutShort frame s) (hp : (c.swept frame s).1 = .ok p) :
    p.report.cancelled = false :=
  Bool.eq_false_iff.mpr fun hcancelled => h ⟨p, _, Prod.ext hp rfl, hcancelled⟩

/-- A run that is not cut short and yields a report has tried the whole plan,
and tells of its attempts. -/
theorem reports_of_not_cutShort {r : Report}
    (h : Tries c frame c.plan 1 {} (s.info (c.opening s)) as (c.swept frame s).1
      (c.swept frame s).2)
    (huncut : ¬ c.CutShort frame s) (hr : (c.run frame s).1 = .ok r) :
    Reports c as r ∧ as.length = c.plan.length := by
  refine ⟨h.reports_run rfl hr, ?_⟩
  obtain ⟨p, t, hswept, -⟩ := run_eq_ok (Prod.ext hr rfl)
  have hp := uncancelled_of_not_cutShort huncut (congrArg Prod.fst hswept)
  rw [hswept] at h
  exact h.length_of_uncancelled hp

variable {u : Session τ}

/-- Two sinks that refuse the same frames for good are offered the same frames,
and trying layouts goes well with both or with neither, whatever else they
refuse.  A sweep that is not cut short reports a trial for each layout of its
plan.  What became of a trial is read off the result of its own offer.  The
numbers, the layouts and the number of scalings do not depend on the results,
and where these agree, so do the outcomes. -/
theorem refusal_isolated (hbuilt : c.Built) (frame : Frame)
    (halike : Sink.Alike s.sink s.files u.sink u.files) (hs : ¬ c.CutShort frame s)
    (hu : ¬ c.CutShort frame u) :
    ∃ (frames : List Encoded) (results results' : List (Except Error Unit)),
      results.length = frames.length ∧ results'.length = frames.length
      ∧ (c.run frame s).2.offers = s.offers ++ frames.zip results
      ∧ (c.run frame u).2.offers = u.offers ++ frames.zip results'
      ∧ (c.swept frame s).1.isOk = (c.swept frame u).1.isOk
      ∧ (∀ r, (c.run frame s).1 = .ok r →
          r.trials.map Trial.failure = results.map Attempt.refusal?
            ∧ r.delivered + r.failed = c.plan.length)
      ∧ (∀ r, (c.run frame u).1 = .ok r →
          r.trials.map Trial.failure = results'.map Attempt.refusal?
            ∧ r.delivered + r.failed = c.plan.length)
      ∧ ∀ r r', (c.run frame s).1 = .ok r → (c.run frame u).1 = .ok r' →
          r.trials.map Trial.index = r'.trials.map Trial.index
          ∧ r.trials.map Trial.layout = r'.trials.map Trial.layout
          ∧ r.resizes = r'.resizes
          ∧ ∀ i : Nat, results[i]? = results'[i]? →
              r.trials[i]?.map Trial.failure = r'.trials[i]?.map Trial.failure := by
  have hplan : ∀ l ∈ c.plan, l.check = .ok () := fun l hl => hbuilt.check hl
  obtain ⟨as, has⟩ := c.swept_tries frame s
  obtain ⟨bs, hbs⟩ := c.swept_tries frame u
  -- The attempts of the two have the same course.
  have hcourse : as.map Attempt.course = bs.map Attempt.course := by
    rw [has.eq_attempts Progress.sound_empty hplan fun q => uncancelled_of_not_cutShort hs,
      hbs.eq_attempts Progress.sound_empty hplan fun q => uncancelled_of_not_cutShort hu]
    exact attempts_alike halike c.plan
  have hview : ∀ {α : Type} (view : Layout × Encoded × Bool → α),
      as.map (fun a => view a.course) = bs.map (fun b => view b.course) := by
    intro α view
    have hmap := congrArg (List.map view) hcourse
    rwa [List.map_map, List.map_map] at hmap
  have hlayouts : as.map Attempt.layout = bs.map Attempt.layout := hview fun x => x.1
  have hframes : as.map Attempt.encoded = bs.map Attempt.encoded := hview fun x => x.2.1
  have hfinal : as.map Attempt.final = bs.map Attempt.final := hview fun x => x.2.2
  have hlength : bs.length = as.length := by
    rw [← List.length_map Attempt.layout, ← hlayouts, List.length_map]
  refine ⟨as.map Attempt.encoded, as.map Attempt.result, bs.map Attempt.result,
    ?_, ?_, ?_, ?_, ?_, ?_, ?_, ?_⟩
  · rw [List.length_map, List.length_map]
  · rw [List.length_map, List.length_map, hlength]
  · rw [offers_run, has.offers, Session.offers_info, List.zip_map']
  · rw [offers_run, hbs.offers, Session.offers_info, hframes, List.zip_map']
  · have hall := congrArg (List.all · (! ·)) hfinal
    rw [has.isOk_eq Progress.sound_empty hplan, hbs.isOk_eq Progress.sound_empty hplan]
    rwa [List.all_map, List.all_map] at hall
  · intro r hr
    obtain ⟨hreports, hwhole⟩ := reports_of_not_cutShort has hs hr
    rw [hreports.failures, List.map_map, r.delivered_add_failed, hreports.length, hwhole]
    exact ⟨rfl, rfl⟩
  · intro r hr
    obtain ⟨hreports, hwhole⟩ := reports_of_not_cutShort hbs hu hr
    rw [hreports.failures, List.map_map, r.delivered_add_failed, hreports.length, hwhole]
    exact ⟨rfl, rfl⟩
  · intro r r' hr hr'
    have hreports := has.reports_run rfl hr
    have hreports' := hbs.reports_run rfl hr'
    refine ⟨?_, ?_, ?_, ?_⟩
    · rw [hreports.indices, hreports'.indices, hlength]
    · rw [hreports.layouts, hreports'.layouts, hlayouts]
    · rw [hreports.resizes, hreports'.resizes, hlayouts]
    · intro i hi
      have hfailures := congrArg (·[i]?) hreports.failures
      have hfailures' := congrArg (·[i]?) hreports'.failures
      rw [List.getElem?_map, List.getElem?_map] at hi
      simp only [List.getElem?_map] at hfailures hfailures'
      have hreasons := congrArg (Option.map Attempt.refusal?) hi
      rw [Option.map_map, Option.map_map] at hreasons
      rw [hfailures, hfailures']
      exact hreasons

/-- Of three frames one sink refuses the second and another the third.  Only
these two trials differ. -/
theorem refusal_isolated_small :
    let c :=
      { smallSweep with
        plan := [smallLayout, { smallLayout with fit := .aspect },
          { smallLayout with order := .rgb }] }
    let s : Session ScriptedSink :=
      { sink := { failures := [(2, .sinkWriteFailure "device" "busy")] } }
    let u : Session ScriptedSink :=
      { sink := { failures := [(3, .sinkWriteFailure "device" "busy")] } }
    c.Built ∧ Sink.Alike s.sink s.files u.sink u.files
      ∧ ¬ c.CutShort smallPicture s ∧ ¬ c.CutShort smallPicture u
      ∧ ∃ r r', (c.run smallPicture s).1 = .ok r ∧ (c.run smallPicture u).1 = .ok r'
        ∧ r.delivered + r.failed = 3 ∧ r'.delivered + r'.failed = 3
        ∧ r.trials.map Trial.layout = r'.trials.map Trial.layout ∧ r.resizes = r'.resizes
        ∧ r.trials[0]?.map Trial.failure = r'.trials[0]?.map Trial.failure := by
  intro c s u
  have hbuilt : c.Built := ⟨none, c.plan, rfl⟩
  have halike : Sink.Alike s.sink s.files u.sink u.files :=
    (ScriptedSink.lenient (by decide) s.files).alike (ScriptedSink.lenient (by decide) u.files)
  have hs : ¬ c.CutShort smallPicture s := not_cutShort_of_running (by decide +kernel)
  have hu : ¬ c.CutShort smallPicture u := not_cutShort_of_running (by decide +kernel)
  have hok : (c.run smallPicture s).1.isOk = true ∧ (c.run smallPicture u).1.isOk = true := by
    decide +kernel
  have hfirst : ((c.run smallPicture s).2.offers.map Prod.snd)[0]? = some (.ok ())
      ∧ ((c.run smallPicture u).2.offers.map Prod.snd)[0]? = some (.ok ()) := by decide +kernel
  refine ⟨hbuilt, halike, hs, hu, ?_⟩
  obtain ⟨frames, results, results', hlength, hlength', hoffers, hoffers', -, hreport, hreport',
      hsame⟩ := refusal_isolated hbuilt smallPicture halike hs hu
  rw [hoffers, hoffers', show s.offers = [] from rfl, show u.offers = [] from rfl,
    List.nil_append, List.nil_append,
    List.map_snd_zip (Nat.le_of_eq hlength), List.map_snd_zip (Nat.le_of_eq hlength')] at hfirst
  cases hrun : (c.run smallPicture s).1 with
  | error f =>
      rw [hrun] at hok
      cases hok.1
  | ok r =>
      cases hrun' : (c.run smallPicture u).1 with
      | error f =>
          rw [hrun'] at hok
          cases hok.2
      | ok r' =>
          obtain ⟨-, hlayouts, hresizes, houtcome⟩ := hsame r r' hrun hrun'
          refine ⟨r, r', rfl, rfl, (hreport r hrun).2, (hreport' r' hrun').2, hlayouts, hresizes,
            houtcome 0 ?_⟩
          rw [hfirst.1, hfirst.2]

end Sweep

end Scanout
