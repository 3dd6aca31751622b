import Scanout.Proofs.Caching
import Scanout.Proofs.Loading
import Scanout.Proofs.Neighbourhoods
import Scanout.Proofs.Rounding
import Scanout.Proofs.Uninterrupted

/-!
# Fine tuning retries its bases

One of the neighbours of a base has its stride scaled by one and its sides not
moved.  A stride that passes the check is far below `2 ^ 53`, so scaling it by
one in double precision changes nothing (`FineTune.scaledStride_hundred`), and
sides of at least a hundred pixels stay as they are.  So a base that passes the
check and is large enough is its own neighbour (`FineTune.neighbour_self`) and
is listed, whatever other bases have listed before it.

Everything that fine tuning lists passes the check, so a plan takes over all of
it (`Sweep.planOf_fineTune`), and a sweep that is not cancelled tries all of its
plan (`Sweep.layouts_of_uncancelled`).
-/

namespace Scanout

/-- A stride that passes the check is at most as long as the largest frame. -/
theorem Layout.stride_le {l : Layout} (hl : l.check = .ok ()) : l.stride ≤ maxBufferLength := by
  obtain ⟨-, hheight, -, hbytes⟩ := l.check_eq_ok_iff.mp hl
  exact Nat.le_trans (Nat.le_mul_of_pos_right _ hheight) hbytes

namespace FineTune

variable {base : Layout} {bases : List Layout}

/-! ## A base among its neighbours -/

theorem stridePercent_hundred : stridePercent 100 = 1 := by decide +kernel

/-- Scaling a stride by one changes nothing, if doubles hold it exactly. -/
theorem scaledStride_hundred {stride : Nat} (h : stride < 2 ^ 53) :
    scaledStride stride 100 = stride := by
  have hproduct : Number.product stride 1 = ((stride : Int) : Rat) := by
    rw [Number.product, mul_one, Number.nearest_natCast h, Number.nearest_natCast h,
      Int.cast_natCast]
  have hword : stride ≤ wordLimit - 1 := Nat.le_trans (Nat.le_of_lt h) (by decide)
  rw [scaledStride, stridePercent_hundred, hproduct, Rat.floor_intCast, Int.toNat_natCast,
    Nat.min_eq_left hword]

theorem movedSide_zero {side : Nat} (h : minimumSide ≤ side) : movedSide side 0 = side := by
  rw [movedSide]
  omega

/-- A base that passes the check and is large enough is its own neighbour. -/
theorem neighbour_self (hcheck : base.check = .ok ()) (hwidth : minimumSide ≤ base.width)
    (hheight : minimumSide ≤ base.height) : neighbour base 100 0 0 = base := by
  have hstride : base.stride < 2 ^ 53 := Nat.lt_of_le_of_lt (Layout.stride_le hcheck) (by decide)
  rw [neighbour, movedSide_zero hwidth, movedSide_zero hheight, Size.wrap_self,
    scaledStride_hundred hstride]

theorem mem_neighbours_self (hcheck : base.check = .ok ()) (hwidth : minimumSide ≤ base.width)
    (hheight : minimumSide ≤ base.height) : base ∈ neighbours base :=
  mem_neighbours_iff.mpr
    ⟨100, by decide, 0, by decide, 0, by decide, neighbour_self hcheck hwidth hheight⟩

/-- A base that passes the check and is large enough is listed, whatever the
other bases are. -/
theorem mem_fineTune_of_mem (hbase : base ∈ bases) (hcheck : base.check = .ok ())
    (hwidth : minimumSide ≤ base.width) (hheight : minimumSide ≤ base.height) :
    base ∈ fineTune bases :=
  mem_fineTune_iff.mpr
    ⟨List.mem_flatMap.mpr ⟨base, hbase, mem_neighbours_self hcheck hwidth hheight⟩, hcheck⟩

end FineTune

namespace Sweep

open FineTune

/-! ## Plans of fine tuning -/

/-- A plan takes over all that fine tuning lists, after what a candidate space
lists.  Only the space can fail. -/
theorem planOf_fineTune {bases : List Layout} (h : fineTune bases ≠ [])
    (candidates : Option Candidates) :
    planOf candidates (fineTune bases)
      = (candidates.elim (.ok []) Candidates.enumerate).map (· ++ fineTune bases) := by
  have hvalid : (fineTune bases).filter Layout.valid = fineTune bases :=
    List.filter_eq_self.mpr fun l hl => l.valid_iff.mpr (mem_fineTune_iff.mp hl).2
  rw [planOf_eq_bind, hvalid]
  cases candidates.elim (.ok []) Candidates.enumerate with
  | error e => rfl
  | ok listed =>
      show demandSome (listed ++ fineTune bases) = .ok (listed ++ fineTune bases)
      cases hplan : listed ++ fineTune bases with
      | nil => exact absurd (List.append_eq_nil_iff.mp hplan).2 h
      | cons l ls => rfl

/-! ## Runs of fine tuning -/

variable {σ : Type} {c : Sweep} {frame : Frame} {s : Session σ} {r : Report}

/-- A sweep without an operator and without a store has nothing left that can
fail when its layouts were tried. -/
theorem exists_finalize_eq_ok (hselection : c.selection = .unattended) (hstore : c.store = none)
    (r : Report)
    (s : Session σ) : ∃ r', (c.finalize r s).1 = .ok r' ∧ r'.cancelled = r.cancelled := by
  have hconclude : ∀ winner, ∃ r', (c.conclude winner r s).1 = .ok r'
      ∧ r'.cancelled = r.cancelled := by
    intro winner
    rw [conclude, hstore]
    dsimp only
    cases (c.judge winner r).trials.find? fun t => t.index == winner with
    | none => exact ⟨_, rfl, rfl⟩
    | some t => exact ⟨_, rfl, rfl⟩
  rw [finalize, hselection]
  dsimp only
  split
  · exact ⟨r, rfl, rfl⟩
  · cases Trial.selectByPadding r.trials with
    | none => exact ⟨r, rfl, rfl⟩
    | some t => exact hconclude t.index

variable [Sink σ]

/-- A sweep that is not cancelled has a trial of every layout of its plan, in order. -/
theorem layouts_of_uncancelled (hrun : (c.run frame s).1 = .ok r)
    (huncancelled : r.cancelled = false) :
    r.trials.map Trial.layout = c.plan := by
  obtain ⟨as, htries⟩ := c.swept_tries frame s
  have hreports := htries.reports_run rfl hrun
  obtain ⟨rest, hplan⟩ := htries.layouts
  have hrest : rest = [] := by
    have hlength := congrArg List.length hplan
    rw [List.length_append, List.length_map, hreports.complete huncancelled] at hlength
    exact List.length_eq_zero_iff.mp (by omega)
  rw [hreports.layouts, ← hplan, hrest, List.append_nil]

/-- If nothing is to stop and the sink refuses nothing for good, a sweep without
an operator and without a store ends in a report and is not cancelled. -/
theorem exists_run_undisturbed (hbuilt : c.Built) (hlenient : Sink.Lenient s.sink s.files)
    (hselection : c.selection = .unattended) (hstore : c.store = none) (frame : Frame) :
    ∃ r, (c.run frame s.undisturbed).1 = .ok r ∧ r.cancelled = false := by
  obtain ⟨p, u, hswept, -, -⟩ := swept_undisturbed hbuilt hlenient frame
  obtain ⟨as, htries⟩ := c.swept_tries frame s.undisturbed
  rw [hswept] at htries
  have hcancelled : p.report.cancelled = false := htries.uncancelled Progress.sound_empty rfl rfl
  rw [run_of_swept_eq_ok hswept, if_neg (by simp [hcancelled])]
  obtain ⟨r, hr, hsame⟩ :=
    exists_finalize_eq_ok hselection hstore p.report (u.cleanUp.info p.report.summary)
  exact ⟨r, hr, hsame.trans hcancelled⟩

/-- Fine tuning lists every base that passes the check and has sides of at least
a hundred pixels.  So a plan that is made from the list is not empty, and a
sweep of such a plan that is not cancelled has a trial of the base. -/
theorem fineTune_retries {bases : List Layout} {base : Layout} (hbase : base ∈ bases)
    (hcheck : base.check = .ok ()) (hwidth : minimumSide ≤ base.width)
    (hheight : minimumSide ≤ base.height) :
    base ∈ fineTune bases
      ∧ planOf none (fineTune bases) = .ok (fineTune bases)
      ∧ (∀ candidates, planOf candidates (fineTune bases)
          = (candidates.elim (.ok []) Candidates.enumerate).map (· ++ fineTune bases))
      ∧ ∀ (σ : Type) [Sink σ] (c : Sweep) (candidates : Option Candidates) (frame : Frame)
          (s : Session σ) (r : Report),
          planOf candidates (fineTune bases) = .ok c.plan → (c.run frame s).1 = .ok r →
          r.cancelled = false → ∃ t ∈ r.trials, t.layout = base := by
  have hlisted := mem_fineTune_of_mem hbase hcheck hwidth hheight
  have hplan := planOf_fineTune (List.ne_nil_of_mem hlisted)
  refine ⟨hlisted, hplan none, hplan, ?_⟩
  intro σ _ c candidates frame s r hc hrun huncancelled
  obtain ⟨listed, -, heq, -⟩ := planOf_eq_ok hc
  have hmem : base ∈ r.trials.map Trial.layout := by
    rw [layouts_of_uncancelled hrun huncancelled, heq]
    exact List.mem_append_right _ (List.mem_filter.mpr ⟨hlisted, base.valid_iff.mpr hcheck⟩)
  exact List.mem_map.mp hmem

/-- The neighbours of a narrower base have listed the standard layout before its
own turn comes, and it is tried. -/
theorem fineTune_retries_small :
    let narrower : Layout := { Layout.standard with width := 700, width_lt := by decide }
    let bases := [narrower, .standard]
    let c : Sweep := { plan := fineTune bases, selection := .unattended }
    let s : Session ScriptedSink :=
      { sink := { failures := [(1, .sinkWriteFailure "device" "busy")] } }
    .standard ∈ neighbours narrower ∧ Layout.standard ∈ fineTune bases
      ∧ planOf none (fineTune bases) = .ok c.plan
      ∧ ∃ r, (c.run smallPicture s.undisturbed).1 = .ok r ∧ r.cancelled = false
        ∧ ∃ t ∈ r.trials, t.layout = .standard := by
  intro narrower bases c s
  have hneighbour : Layout.standard ∈ neighbours narrower := by decide +kernel
  obtain ⟨hlisted, hplan, -, hretries⟩ :=
    fineTune_retries (show Layout.standard ∈ bases by decide) (by decide) (by decide) (by decide)
  have hlenient : Sink.Lenient s.sink s.files := ScriptedSink.lenient (by decide) s.files
  obtain ⟨r, hrun, huncancelled⟩ :=
    exists_run_undisturbed (c := c) ⟨none, _, hplan⟩ hlenient rfl rfl smallPicture
  exact ⟨hneighbour, hlisted, hplan, r, hrun, huncancelled,
    hretries _ c none smallPicture _ r hplan hrun huncancelled⟩

end Sweep

end Scanout
