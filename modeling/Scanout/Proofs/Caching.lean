import Mathlib.Data.Finset.Card
import Scanout.Proofs.Runs
import Scanout.Proofs.SweepPlan

/-!
# The cache of a sweep changes nothing but the work

A sweep keeps every picture that it scaled, under the canvas and the fit that it
was scaled for.  `Progress.Counts` is the invariant: the cache holds the keys of
the layouts that were prepared, and as many pictures were scaled as there are
different ones among them.  It holds in whatever order the layouts come back to
a key (`Tries.counts`).

`Reports` says what a report tells of the attempts of its run, and the report of
every run does (`Tries.reports_run`).  So a sweep refines one that scales anew
for every layout: offer for offer, trial for trial, and with one scaling for
each key.
-/

namespace Scanout

namespace Sweep

/-! ## Keys -/

/-- What the scaled picture of a layout depends on, given the picture. -/
def scaleKey (l : Layout) : ScaleKey := (l.toSize, l.fit)

/-- The number of different scaled pictures that some layouts need. -/
def scalings (ls : List Layout) : Nat := (ls.map scaleKey).toFinset.card

theorem toFinset_concat (ls : List Layout) (l : Layout) :
    ((ls ++ [l]).map scaleKey).toFinset = insert (scaleKey l) (ls.map scaleKey).toFinset := by
  ext key
  simp only [List.map_append, List.map_cons, List.map_nil, List.mem_toFinset, List.mem_append,
    List.mem_singleton, Finset.mem_insert]
  exact or_comm

theorem scalings_concat_of_mem {ls : List Layout} {l : Layout} (h : scaleKey l ∈ ls.map scaleKey) :
    scalings (ls ++ [l]) = scalings ls := by
  rw [scalings, toFinset_concat, Finset.insert_eq_of_mem (List.mem_toFinset.mpr h), scalings]

theorem scalings_concat_of_notMem {ls : List Layout} {l : Layout}
    (h : scaleKey l ∉ ls.map scaleKey) :
    scalings (ls ++ [l]) = scalings ls + 1 := by
  rw [scalings, toFinset_concat, Finset.card_insert_of_notMem (mt List.mem_toFinset.mp h), scalings]

/-! ## What is in the cache -/

/-- The cache holds a picture for each key of the layouts that were prepared,
and each was scaled once. -/
structure Progress.Counts (p : Progress) (ls : List Layout) : Prop where
  resizes : p.report.resizes = scalings ls
  cached : ∀ key, (p.cache.lookup key).isSome = true ↔ key ∈ ls.map scaleKey

variable {c : Sweep} {frame : Frame} {l : Layout} {ls : List Layout} {p q : Progress}

theorem Progress.counts_empty : ({} : Progress).Counts [] := ⟨rfl, fun _ => by simp⟩

theorem Progress.Counts.add (h : p.Counts ls) (t : Trial) : (p.add t).Counts ls :=
  ⟨h.resizes, h.cached⟩

theorem Progress.Counts.cancel (h : p.Counts ls) : p.cancel.Counts ls := ⟨h.resizes, h.cached⟩

theorem Progress.Counts.hit (h : p.Counts ls) (hkey : (p.cache.lookup (scaleKey l)).isSome = true) :
    p.Counts (ls ++ [l]) := by
  have hmem := (h.cached _).mp hkey
  refine ⟨by rw [scalings_concat_of_mem hmem, h.resizes], ?_⟩
  intro key
  rw [h.cached, List.map_append, List.mem_append, List.map_singleton, List.mem_singleton]
  constructor
  · exact .inl
  · rintro (hother | rfl)
    · exact hother
    · exact hmem

theorem Progress.Counts.miss (h : p.Counts ls) (hkey : p.cache.lookup (scaleKey l) = none)
    (f : Frame) :
    (p.keep (scaleKey l) f).Counts (ls ++ [l]) := by
  have hmem : scaleKey l ∉ ls.map scaleKey := by
    rw [← h.cached, hkey]
    exact Bool.false_ne_true
  constructor
  · rw [scalings_concat_of_notMem hmem, ← h.resizes]
    rfl
  · intro key
    rw [Progress.keep, List.lookup_cons, List.map_append, List.mem_append, List.map_singleton,
      List.mem_singleton, ← h.cached]
    cases hsame : key == scaleKey l with
    | true => exact ⟨fun _ => .inr (eq_of_beq hsame), fun _ => rfl⟩
    | false => exact ⟨.inl, fun hor => hor.resolve_right (ne_of_beq_false hsame)⟩

theorem Progress.Counts.prepare {e : Encoded} (hp : p.Counts ls)
    (h : c.prepare frame l p = .ok (e, q)) :
    q.Counts (ls ++ [l]) := by
  obtain ⟨⟨f, q'⟩, hscaled, h⟩ := bind_eq_ok.mp h
  obtain ⟨e', -, h⟩ := bind_eq_ok.mp h
  cases h
  unfold scaled at hscaled
  cases hlookup : p.cache.lookup (l.toSize, l.fit) with
  | some g =>
      rw [hlookup] at hscaled
      cases hscaled
      refine hp.hit ?_
      rw [scaleKey, hlookup]
      rfl
  | none =>
      rw [hlookup] at hscaled
      obtain ⟨g, -, hscaled⟩ := bind_eq_ok.mp hscaled
      cases hscaled
      exact hp.miss hlookup _

/-! ## What a report tells -/

/-- What a report tells of the attempts of its run. -/
structure Reports (c : Sweep) (as : List Attempt) (r : Report) : Prop where
  trials : r.trials.map Trial.unjudged = numbered 1 as
  resizes : r.resizes = scalings (as.map Attempt.layout)
  complete : r.cancelled = false → as.length = c.plan.length

variable {as : List Attempt} {r r' : Report}

theorem unjudged_numbered (index : Nat) (as : List Attempt) :
    (numbered index as).map Trial.unjudged = numbered index as := by
  induction as generalizing index with
  | nil => rfl
  | cons a as ih =>
      rw [numbered, List.map_cons, ih, Trial.unjudged_of_unrated (a.verdict_trial index)]

/-- A trial is the attempt of its number. -/
theorem Reports.trial (h : Reports c as r) {i : Nat} {t : Trial} (ht : r.trials[i]? = some t) :
    ∃ a, as[i]? = some a ∧ t.unjudged = a.trial (1 + i) := by
  have hi := congrArg (·[i]?) h.trials
  simp only [List.getElem?_map, ht, getElem?_numbered, Option.map_some] at hi
  obtain ⟨a, ha, heq⟩ := Option.map_eq_some_iff.mp hi.symm
  exact ⟨a, ha, heq.symm⟩

theorem Reports.length (h : Reports c as r) : r.trials.length = as.length := by
  rw [← List.length_map Trial.unjudged, h.trials, length_numbered]

/-- What a verdict does not change, a report has from the attempts. -/
theorem Reports.map (h : Reports c as r) {α : Type} {view : Trial → α}
    (hview : ∀ t, view t.unjudged = view t) :
    r.trials.map view = (numbered 1 as).map view := by
  rw [← h.trials, List.map_map]
  exact List.map_congr_left fun t _ => (hview t).symm

theorem Reports.indices (h : Reports c as r) : r.trials.map Trial.index = List.range' 1 as.length :=
  (h.map fun _ => rfl).trans (index_numbered 1 as)

theorem Reports.layouts (h : Reports c as r) : r.trials.map Trial.layout = as.map Attempt.layout :=
  (h.map fun _ => rfl).trans (layout_numbered 1 as)

theorem Reports.failures (h : Reports c as r) :
    r.trials.map Trial.failure = as.map fun a => Attempt.refusal? a.result :=
  (h.map fun _ => rfl).trans (failure_numbered 1 as)

theorem Reports.resizes_eq (h : Reports c as r) (hplan : as.map Attempt.layout <+: c.plan) :
    r.resizes = scalings (c.plan.take as.length) := by
  rw [h.resizes, ← as.length_map Attempt.layout, ← List.prefix_iff_eq_take.mp hplan]

variable {σ : Type} {s s' : Session σ}

theorem Reports.finalize (h : Reports c as r) (hr : Finalizes c r s r' s') : Reports c as r' :=
  ⟨hr.trials.trans h.trials, hr.resizes.trans h.resizes, fun hc => h.complete (hr.uncancelled hc)⟩

variable [Sink σ] {index : Nat} {o : Outcome Progress}

namespace Tries

/-- An attempt is made of the layout at its place. -/
theorem layout (h : Tries c frame ls index p s as o s') {i : Nat} {a : Attempt}
    (ha : as[i]? = some a) :
    ls[i]? = some a.layout := by
  obtain ⟨rest, hrest⟩ := h.layouts
  have hi : i < (as.map Attempt.layout).length := by
    rw [List.length_map]
    exact (List.getElem?_eq_some_iff.mp ha).1
  rw [← hrest, List.getElem?_append_left hi, List.getElem?_map, ha, Option.map_some]

/-- Layouts that were tried without being cancelled were all tried. -/
theorem length_of_uncancelled (h : Tries c frame ls index p s as (.ok q) s')
    (hq : q.report.cancelled = false) :
    as.length = ls.length := by
  generalize ho : (Except.ok q : Outcome Progress) = o at h
  induction h with
  | done => rfl
  | stopped _ =>
      cases ho
      cases hq
  | unready _ _ => cases ho
  | fatal _ _ _ => cases ho
  | refused _ _ _ _ ih => rw [List.length_cons, List.length_cons, ih ho]
  | cut _ _ _ =>
      cases ho
      cases hq
  | watched _ _ _ _ ih => rw [List.length_cons, List.length_cons, ih ho]

/-- A picture is scaled once for each key of the layouts that were offered. -/
theorem counts {before : List Layout} (h : Tries c frame ls index p s as (.ok q) s')
    (hp : p.Counts before) :
    q.Counts (before ++ as.map Attempt.layout) := by
  generalize ho : (Except.ok q : Outcome Progress) = o at h
  -- What is counted at one layout is what was counted before it and the layout itself.
  induction h generalizing before with
  | done =>
      cases ho
      rw [List.map_nil, List.append_nil]
      exact hp
  | stopped _ =>
      cases ho
      rw [List.map_nil, List.append_nil]
      exact hp.cancel
  | unready _ _ => cases ho
  | fatal _ _ _ => cases ho
  | refused hof _ _ _ ih =>
      rw [List.map_cons, hof.layout, List.append_cons]
      exact ih ((hp.prepare hof.prepare).add _) ho
  | cut hof _ _ =>
      cases ho
      rw [List.map_cons, List.map_nil, hof.layout]
      exact ((hp.prepare hof.prepare).add _).cancel
  | watched hof _ _ _ ih =>
      rw [List.map_cons, hof.layout, List.append_cons]
      exact ih ((hp.prepare hof.prepare).add _) ho

theorem reports (h : Tries c frame c.plan 1 {} s as (.ok p) s') : Reports c as p.report := by
  constructor
  · rw [h.trials]
    exact unjudged_numbered 1 as
  · exact (h.counts Progress.counts_empty).resizes
  · exact h.length_of_uncancelled

/-- The report of a run tells of the attempts that it made. -/
theorem reports_run {t : Session σ} (h : Tries c frame c.plan 1 {} (s.info (c.opening s)) as o t)
    (hswept : c.swept frame s = (o, t)) (hr : (c.run frame s).1 = .ok r) : Reports c as r := by
  obtain ⟨p, u, hok, hends⟩ := run_eq_ok (Prod.ext hr rfl)
  rw [hok] at hswept
  cases hswept
  rcases hends with ⟨-, rfl, -⟩ | ⟨-, hfinalize⟩
  · exact h.reports
  · exact h.reports.finalize (finalizes_of_finalize hfinalize)

end Tries

/-! ## Offer for offer and trial for trial -/

/-- A sweep refines the plain one, which scales anew for every layout.  Its
offers are the frames of the first layouts of the plan, its trials tell in order
which of them the sink took, and it scales once for each key among them.  Unless
it is cancelled, they are the whole plan. -/
theorem run_refines_plain (c : Sweep) (frame : Frame) (s : Session σ) :
    ∃ offers : List (Encoded × Except Error Unit), (c.run frame s).2.offers = s.offers ++ offers
      ∧ (∀ (i : Nat) o, offers[i]? = some o → ∃ l, c.plan[i]? = some l ∧ c.fresh frame l = .ok o.1)
      ∧ ∀ r, (c.run frame s).1 = .ok r →
          r.trials.length = offers.length
          ∧ (∀ (i : Nat) t, r.trials[i]? = some t → t.index = i + 1 ∧ c.plan[i]? = some t.layout
              ∧ (t.delivered = true ↔ ∃ e, offers[i]? = some (e, .ok ())))
          ∧ r.resizes = scalings (c.plan.take offers.length)
          ∧ (r.cancelled = false → r.trials.length = c.plan.length) := by
  obtain ⟨as, htries⟩ := c.swept_tries frame s
  refine ⟨as.map fun a => (a.encoded, a.result), ?_, ?_, ?_⟩
  · rw [offers_run, htries.offers, Session.offers_info]
  · intro i o ho
    rw [List.getElem?_map, Option.map_eq_some_iff] at ho
    obtain ⟨a, ha, rfl⟩ := ho
    exact ⟨a.layout, htries.layout ha,
      htries.fresh Progress.sound_empty a (List.mem_of_getElem? ha)⟩
  · intro r hr
    have hreports := htries.reports_run rfl hr
    refine ⟨by rw [hreports.length, List.length_map], ?_, ?_, ?_⟩
    · intro i t ht
      obtain ⟨a, ha, htrial⟩ := hreports.trial ht
      refine ⟨?_, ?_, ?_⟩
      -- A verdict changes none of the three, so each is read off the attempt.
      · show t.unjudged.index = i + 1
        rw [htrial, a.index_trial, Nat.add_comm]
      · show c.plan[i]? = some t.unjudged.layout
        rw [htrial, a.layout_trial]
        exact htries.layout ha
      · show t.unjudged.delivered = true ↔ _
        rw [htrial, a.delivered_trial, List.getElem?_map, ha]
        simp
    · rw [hreports.resizes_eq htries.layouts, List.length_map]
    · intro hc
      rw [hreports.length, hreports.complete hc]

/-- The third of three layouts comes back to the key of the first, so that two
pictures are scaled for three offers, the second of which the sink refuses. -/
theorem run_refines_plain_small :
    let c :=
      { smallSweep with
        plan := [smallLayout, { smallLayout with fit := .aspect },
          { smallLayout with order := .rgb }] }
    let s : Session ScriptedSink :=
      { sink := { failures := [(2, .sinkWriteFailure "device" "busy")] } }
    ∃ r, (c.run smallPicture s).1 = .ok r ∧ r.trials.length = 3 ∧ r.resizes = 2
      ∧ ∀ t, r.trials[2]? = some t →
          t.index = 3 ∧ t.layout = { smallLayout with order := .rgb } := by
  intro c s
  have huncancelled : (c.run smallPicture s).1.toOption.map Report.cancelled = some false := by
    decide +kernel
  obtain ⟨offers, -, -, hreport⟩ := c.run_refines_plain smallPicture s
  cases hrun : (c.run smallPicture s).1 with
  | error f =>
      rw [hrun] at huncancelled
      cases huncancelled
  | ok r =>
      rw [hrun] at huncancelled
      obtain ⟨hlength, htrials, hresizes, hwhole⟩ := hreport r hrun
      have hthree : r.trials.length = 3 := hwhole (Option.some.inj huncancelled)
      refine ⟨r, rfl, hthree, ?_, ?_⟩
      · rw [hresizes, ← hlength, hthree]
        decide
      · intro t ht
        obtain ⟨hindex, hlayout, -⟩ := htrials 2 t ht
        exact ⟨hindex, (Option.some.inj hlayout).symm⟩

end Sweep

end Scanout
