import Scanout.Pipeline
import Scanout.Proofs.Runs
import Scanout.Proofs.Saving
import Scanout.Proofs.SweepPlan

/-!
# What was chosen is what is displayed

A sweep shows the operator frames that it scales through a cache and encodes.
Afterwards the layout of choice goes through the record file, and a pipeline,
written on its own, takes every picture to the device.  Both come to the same
bytes: without a correction of the size a pipeline renders what a sweep prepares
(`Pipeline.render_eq_fresh`), the record gives back the layout that was saved
(`Store.tryLoad_save`), and the number of the winner is that of its offer.
-/

namespace Scanout

/-! ## Pipelines without a correction -/

theorem Frame.resizeWithOffset_zero (f : Frame) (filter : Resampler) {canvas : Size} (fit : Fit)
    (h : canvas.positive = true) :
    f.resizeWithOffset filter canvas fit ⟨0, 0⟩ = f.resize filter canvas fit := by
  unfold resizeWithOffset
  rw [h]
  rfl

namespace Pipeline

theorem make_eq_ok {l : Layout} (filter : Resampler) (o : Offset) (hl : l.check = .ok ()) :
    make l filter o = .ok ⟨l, filter, o, hl⟩ := by
  unfold make
  split
  · rfl
  · rename_i e he
    rw [hl] at he
    cases he

/-- Without a correction a pipeline renders what a sweep with its filter prepares. -/
theorem render_eq_fresh {c : Sweep} {frame : Frame} {l : Layout} (hl : l.check = .ok ()) :
    render ⟨l, c.filter, ⟨0, 0⟩, hl⟩ frame = c.fresh frame l := by
  obtain ⟨hw, hh, -, -⟩ := l.check_eq_ok_iff.mp hl
  unfold render Sweep.fresh
  rw [frame.resizeWithOffset_zero c.filter l.fit (l.positive_iff.mpr ⟨hw, hh⟩)]

end Pipeline

namespace Sweep

variable {σ : Type} [Sink σ] {c : Sweep} {frame : Frame} {s s' : Session σ} {r : Report} {w : Trial}

/-! ## Winners -/

/-- The winner is the attempt of its number, with the verdict on it, and the
sink took its frame. -/
structure Wins (c : Sweep) (frame : Frame) (s : Session σ) (r : Report) (s' : Session σ) (w : Trial)
    (as : List Attempt) (a : Attempt) : Prop where
  offers : s'.offers = s.offers ++ as.map fun a => (a.encoded, a.result)
  length : r.trials.length = as.length
  index_pos : 0 < w.index
  attempt : as[w.index - 1]? = some a
  trial : r.trials[w.index - 1]? = some w
  layout : w.layout = a.layout
  taken : a.result = .ok ()
  fresh : c.fresh frame a.layout = .ok a.encoded

theorem exists_wins (hrun : c.run frame s = (.ok r, s')) (hw : r.winner = some w) :
    (∃ as a, Wins c frame s r s' w as a)
      ∧ ∃ (q : Report) (t : Session σ), q.winner = none ∧ Concludes c w.index q t r s' := by
  obtain ⟨p, u, hswept, hends⟩ := run_eq_ok hrun
  obtain ⟨as, htries⟩ := c.swept_tries frame s
  rw [hswept] at htries
  obtain ⟨n, b, hreport⟩ := htries.report Progress.sound_empty
  have hnone : p.report.winner = none := by rw [hreport]
  have htrials : p.report.trials = numbered 1 as := by
    rw [hreport]
    rfl
  rcases hends with ⟨-, rfl, -⟩ | ⟨-, hfinalize⟩
  · rw [hnone] at hw
    cases hw
  · obtain ⟨⟨x, hx, hwx⟩, ⟨y, hy, hindex, hdelivered⟩, t, -, hconcludes⟩ :=
      (finalizes_of_finalize hfinalize).winner hnone hw
    rw [htrials] at hx hy
    obtain ⟨k, a, ha, rfl⟩ := exists_of_mem_numbered hx
    obtain ⟨j, a', ha', rfl⟩ := exists_of_mem_numbered hy
    have hwindex : w.index = 1 + k := (congrArg Trial.index hwx).trans (a.index_trial (1 + k))
    -- Numbers tell attempts apart, so the trial that was named is the winner.
    have hkj : j = k := by
      rw [a'.index_trial, hwindex] at hindex
      exact Nat.add_left_cancel hindex
    rw [hkj, ha] at ha'
    cases ha'
    have hk : w.index - 1 = k := by omega
    have hjudged : r.trials = (numbered 1 as).map fun t =>
        { t with verdict := c.verdict w.index t } := by
      obtain ⟨chosen, written, hjudge⟩ := hconcludes.report
      rw [hjudge, ← htrials]
      rfl
    refine ⟨⟨as, a, ?_⟩, p.report, t, hnone, hconcludes⟩
    constructor
    · have hoffers := offers_run c frame s
      rw [hrun, hswept] at hoffers
      rw [hoffers, htries.offers, Session.offers_info]
    · rw [hjudged, List.length_map, length_numbered]
    · omega
    · rw [hk, ha]
    · rw [hk, hjudged, List.getElem?_map, getElem?_numbered, ha, Option.map_some, Option.map_some,
        ← hwx]
    · exact (congrArg Trial.layout hwx).trans (a.layout_trial (1 + k))
    · exact (a.delivered_trial _).mp hdelivered
    · exact htries.fresh Progress.sound_empty a (List.mem_of_getElem? ha)

/-! ## From the sweep to the display -/

/-- If a sweep with a store has a winner, the store holds its layout, and a
pipeline of that layout takes the same picture to the bytes that the sink took
in the winning trial. -/
theorem displays_choice {store : Store} (hstore : c.store = some store)
    (hrun : c.run frame s = (.ok r, s')) (hw : r.winner = some w) :
    r.storeWritten = true ∧ store.tryLoad s'.files = .ok (some w.layout)
      ∧ ∃ p e offers, Pipeline.make w.layout c.filter ⟨0, 0⟩ = .ok p ∧ p.render frame = .ok e
        ∧ s'.offers = s.offers ++ offers ∧ offers.length = r.trials.length
        ∧ 0 < w.index ∧ r.trials[w.index - 1]? = some w
        ∧ offers[w.index - 1]? = some (e, .ok ()) := by
  obtain ⟨⟨as, a, hwins⟩, q, t, hq, hconcludes⟩ := exists_wins hrun hw
  obtain ⟨hsave, hfiles, hwritten⟩ := hconcludes.save hq hw hstore
  obtain ⟨hcheck, -, -⟩ := Store.save_eq_ok hsave
  have hload : store.tryLoad s'.files = .ok (some w.layout) := by
    rw [hfiles]
    exact Store.tryLoad_save hsave
  have hrender : (Pipeline.mk w.layout c.filter ⟨0, 0⟩ hcheck).render frame = .ok a.encoded := by
    rw [Pipeline.render_eq_fresh hcheck, hwins.layout]
    exact hwins.fresh
  refine ⟨hwritten, hload, _, a.encoded, as.map fun a => (a.encoded, a.result),
    Pipeline.make_eq_ok _ _ hcheck, hrender, hwins.offers, ?_, hwins.index_pos, hwins.trial, ?_⟩
  · rw [List.length_map, hwins.length]
  · rw [List.getElem?_map, hwins.attempt, Option.map_some, hwins.taken]

/-- The sink refuses the first of the two, and a pipeline of the second displays
what it took. -/
theorem displays_choice_small :
    let s : Session ScriptedSink :=
      { sink := { failures := [(1, .sinkWriteFailure "device" "busy")] } }
    smallSweep.store = some ⟨"best"⟩
      ∧ ∃ r s' w, smallSweep.run smallPicture s = (.ok r, s') ∧ r.winner = some w
      ∧ w.index = 2 ∧ (⟨"best"⟩ : Store).tryLoad s'.files = .ok (some w.layout)
      ∧ ∃ p e, Pipeline.make w.layout .lanczos3 ⟨0, 0⟩ = .ok p ∧ p.render smallPicture = .ok e
        ∧ (e, .ok ()) ∈ s'.offers := by
  intro s
  have hindex :
      ((smallSweep.run smallPicture s).1.toOption.bind Report.winner).map Trial.index = some 2 := by
    decide +kernel
  cases hrun : smallSweep.run smallPicture s with
  | mk o s' =>
      rw [hrun] at hindex
      cases o with
      | error f => cases hindex
      | ok r =>
          obtain ⟨w, hw, htwo⟩ := Option.map_eq_some_iff.mp hindex
          obtain ⟨-, hload, p, e, offers, hmake, hrender, hoffers, -, -, -, hoffer⟩ :=
            displays_choice rfl hrun hw
          refine ⟨rfl, r, s', w, rfl, hw, htwo, hload, p, e, hmake, hrender, ?_⟩
          rw [hoffers]
          exact List.mem_append_right _ (List.mem_of_getElem? hoffer)

end Sweep

end Scanout
