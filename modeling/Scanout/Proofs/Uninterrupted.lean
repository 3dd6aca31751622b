import Scanout.Proofs.Caching
import Scanout.Proofs.SweepPlan

/-!
# Sweeps that nobody interrupts

What a sweep attempts does not depend on the time, the cache or the journal.
`Sweep.attempts` computes it from the layouts, the sink and the files alone:
each frame is scaled anew and offered, until the sink refuses one for good.
Every sweep makes a first part of these attempts (`Tries.prefix_attempts`), and
one that is not cancelled makes all of them (`Tries.eq_attempts`).

A session in which nothing is ever to stop is `Session.undisturbed`: it knows no
moment to stop, and its sink is `Muted`, so that a delivery does not ask for a
stop either.  A sweep in it makes all its attempts, if the sink refuses nothing
for good (`Sweep.swept_undisturbed`).
-/

namespace Scanout

/-! ## Sinks that ask for no stop -/

/-- A sink whose deliveries never ask everything to stop. -/
structure Muted (σ : Type) where
  sink : σ

namespace Muted

variable {σ : Type} [Sink σ]

/-- Take a frame as the sink does. -/
def deliver (k : Muted σ) (t : FileTree) (frame : Encoded) : Delivery (Muted σ) :=
  let d := Sink.deliver k.sink t frame
  { result := d.result, sink := ⟨d.sink⟩, files := d.files }

/-- Clean up as the sink does. -/
def cleanUp (k : Muted σ) (t : FileTree) : CleanUp (Muted σ) :=
  let c := Sink.cleanUp k.sink t
  { sink := ⟨c.sink⟩, files := c.files, notes := c.notes }

instance : Sink (Muted σ) where
  deliver := deliver
  cleanUp := cleanUp
  name k := Sink.name k.sink

end Muted

/-- The session, if nothing is ever to stop. -/
def Session.undisturbed {σ : Type} (s : Session σ) : Session (Muted σ) where
  clock := { s.clock with stopAt := none }
  files := s.files
  sink := ⟨s.sink⟩
  answers := s.answers
  services := s.services
  past := s.past

/-! ## Sinks that refuse nothing for good -/

/-- Whatever the sink refuses, a loop steps over it. -/
def Sink.Lenient {σ : Type} [Sink σ] (k : σ) (t : FileTree) : Prop :=
  ∀ k' t' frame e, Reaches k t k' t' → (Sink.deliver k' t' frame).result = .error e →
    e.skippable = true

theorem Sink.Lenient.deliver {σ : Type} [Sink σ] {k : σ} {t : FileTree} (h : Sink.Lenient k t)
    (frame : Encoded) :
    Sink.Lenient (Sink.deliver k t frame).sink (Sink.deliver k t frame).files :=
  fun k' t' frame' e hreaches => h k' t' frame' e ((Reaches.deliver frame .refl).trans hreaches)

/-- A script that refuses nothing for good makes a lenient sink. -/
theorem ScriptedSink.lenient {k : ScriptedSink} (h : ∀ x ∈ k.failures, x.2.skippable = true)
    (t : FileTree) :
    Sink.Lenient k t := by
  intro k' t' frame e hreaches he
  have hscript : k'.failures = k.failures := by
    clear he
    induction hreaches with
    | refl => rfl
    | deliver _ _ ih => exact ih
    | cleanUp _ ih => exact ih
  rw [show Sink.deliver k' t' frame = k'.deliver t' frame from rfl, deliver] at he
  dsimp only at he
  split at he
  · rename_i f hlookup
    cases he
    obtain ⟨before, after, hmem, -⟩ := List.lookup_eq_some_iff.mp hlookup
    exact h (k'.attempts + 1, e) (by simp [← hscript, hmem])
  · cases he

namespace Sweep

variable {σ : Type} [Sink σ] {c : Sweep} {frame : Frame} {l : Layout} {ls : List Layout}
  {index : Nat} {p q : Progress} {s s' t : Session σ} {a : Attempt} {as : List Attempt}
  {o : Outcome Progress}

/-! ## Attempts without a clock -/

/-- The sink refused the frame for good. -/
def Attempt.final (a : Attempt) : Bool :=
  match a.result with
  | .ok () => false
  | .error e => !e.skippable

theorem Attempt.final_eq_false_iff (a : Attempt) :
    a.final = false ↔ ∀ e, a.result = .error e → e.skippable = true := by
  unfold final
  cases a.result with
  | ok u => exact ⟨fun _ e he => (nomatch he), fun _ => rfl⟩
  | error e => simp

/-- The attempts that are made of layouts with a sink, if nothing is to stop:
every frame is scaled anew and offered, until the sink refuses one for good. -/
def attempts (c : Sweep) (frame : Frame) : List Layout → σ → FileTree → List Attempt
  | [], _, _ => []
  | l :: ls, k, t =>
      match c.fresh frame l with
      | .error _ => []
      | .ok e =>
          let d := Sink.deliver k t e
          let a : Attempt := ⟨l, e, d.result⟩
          a :: if a.final then [] else attempts c frame ls d.sink d.files

/-- A sink that refuses nothing for good makes no final attempt. -/
theorem final_of_mem_attempts {k : σ} {t : FileTree} (h : Sink.Lenient k t)
    (ha : a ∈ c.attempts frame ls k t) :
    a.final = false := by
  induction ls generalizing k t with
  | nil => cases ha
  | cons l ls ih =>
      rw [attempts] at ha
      split at ha
      · cases ha
      · rename_i e _
        cases List.mem_cons.mp ha with
        | inl heq =>
            rw [heq, Attempt.final_eq_false_iff]
            exact fun f hf => h k t e f .refl hf
        | inr hmem =>
            split at hmem
            · cases hmem
            · exact ih (h.deliver e) hmem

/-- Whether deliveries ask for a stop does not matter. -/
theorem attempts_muted (c : Sweep) (frame : Frame) (ls : List Layout) (k : σ) (t : FileTree) :
    c.attempts frame ls (Muted.mk k) t = c.attempts frame ls k t := by
  induction ls generalizing k t with
  | nil => rfl
  | cons l ls ih =>
      rw [attempts, attempts]
      cases c.fresh frame l with
      | error f => rfl
      | ok e => exact congrArg _ (congrArg _ (ih _ _))

/-! ## What a sweep attempts -/

theorem Offers.delivered (h : Offers c frame l index p s a q t) :
    a.result = (Sink.deliver s.sink s.files a.encoded).result
      ∧ t.sink = (Sink.deliver s.sink s.files a.encoded).sink
      ∧ t.files = (Sink.deliver s.sink s.files a.encoded).files := by
  have hresult := congrArg Prod.fst h.offer
  have ht := congrArg Prod.snd h.offer
  subst ht
  exact ⟨hresult.symm, rfl, rfl⟩

theorem Offers.attempts (h : Offers c frame l index p s a q t) (hp : p.Sound c frame)
    (ls : List Layout) :
    c.attempts frame (l :: ls) s.sink s.files
      = a :: if a.final then [] else c.attempts frame ls t.sink t.files := by
  obtain ⟨hfresh, -⟩ := h.fresh hp
  obtain ⟨hresult, hsink, hfiles⟩ := h.delivered
  have ha : a = ⟨l, a.encoded, (Sink.deliver s.sink s.files a.encoded).result⟩ := by
    rw [← hresult, ← h.layout]
  rw [h.layout] at hfresh
  rw [Sweep.attempts, hfresh, hsink, hfiles]
  dsimp only
  rw [← ha]

namespace Tries

/-- A sweep attempts a first part of what it attempts if nothing is to stop. -/
theorem prefix_attempts (h : Tries c frame ls index p s as o s') (hp : p.Sound c frame) :
    as <+: c.attempts frame ls s.sink s.files := by
  induction h with
  | done => exact List.nil_prefix
  | stopped _ => exact List.nil_prefix
  | unready _ _ => exact List.nil_prefix
  | fatal hof _ _ =>
      rw [hof.attempts hp]
      exact List.cons_prefix_cons.mpr ⟨rfl, List.nil_prefix⟩
  | refused hof hresult hskip _ ih =>
      rw [hof.attempts hp, if_neg (by simp [Attempt.final, hresult, hskip])]
      exact List.cons_prefix_cons.mpr ⟨rfl, ih (hof.fresh hp).2⟩
  | cut hof _ _ =>
      rw [hof.attempts hp]
      exact List.cons_prefix_cons.mpr ⟨rfl, List.nil_prefix⟩
  | watched hof hresult _ _ ih =>
      rw [hof.attempts hp, if_neg (by simp [Attempt.final, hresult])]
      exact List.cons_prefix_cons.mpr ⟨rfl, ih (hof.fresh hp).2⟩

/-- A sweep that is not cancelled attempts all that it attempts if nothing is to
stop, however it ends. -/
theorem eq_attempts (h : Tries c frame ls index p s as o s') (hp : p.Sound c frame)
    (hls : ∀ l ∈ ls, l.check = .ok ()) (ho : ∀ q, o = .ok q → q.report.cancelled = false) :
    as = c.attempts frame ls s.sink s.files := by
  induction h with
  | done => rfl
  | stopped _ => exact absurd (ho _ rfl) Bool.noConfusion
  | unready _ hprepare =>
      obtain ⟨e, q, hok⟩ := exists_prepare_eq_ok hp (hls _ List.mem_cons_self)
      rw [hok] at hprepare
      cases hprepare
  | fatal hof hresult hskip =>
      rw [hof.attempts hp, if_pos (by simp [Attempt.final, hresult, hskip])]
  | refused hof hresult hskip _ ih =>
      rw [hof.attempts hp, if_neg (by simp [Attempt.final, hresult, hskip])]
      exact congrArg _ (ih (hof.fresh hp).2 (List.forall_mem_cons.mp hls).2 ho)
  | cut _ _ _ => exact absurd (ho _ rfl) Bool.noConfusion
  | watched hof hresult _ _ ih =>
      rw [hof.attempts hp, if_neg (by simp [Attempt.final, hresult])]
      exact congrArg _ (ih (hof.fresh hp).2 (List.forall_mem_cons.mp hls).2 ho)

end Tries

/-! ## Undisturbed sessions -/

section Undisturbed

variable {s s' t : Session (Muted σ)}

theorem Offers.clock_eq (h : Offers c frame l index p s a q t) : t.clock = s.clock := by
  have ht := congrArg Prod.snd h.offer
  subst ht
  rfl

/-- A sweep is not cancelled if nothing is to stop. -/
theorem Tries.uncancelled (h : Tries c frame ls index p s as (.ok q) s') (hp : p.Sound c frame)
    (hclock : s.clock.stopAt = none) (hstart : p.report.cancelled = false) :
    q.report.cancelled = false := by
  -- A muted sink leaves the clock as it is, so that no moment to stop ever
  -- becomes known.
  generalize ho : (Except.ok q : Outcome Progress) = o at h
  induction h with
  | done =>
      cases ho
      exact hstart
  | stopped hstop =>
      rw [Clock.stopped, hclock] at hstop
      cases hstop
  | unready _ _ => cases ho
  | fatal _ _ _ => cases ho
  | refused hof _ _ _ ih =>
      obtain ⟨n, hreport⟩ := hof.report hp
      refine ih (hof.fresh hp).2 ?_ (by rw [hreport, hstart]) ho
      exact (congrArg Clock.stopAt hof.clock_eq).trans hclock
  | cut hof _ hrace =>
      rw [hof.clock_eq, Clock.race_of_stopAt_eq_none hclock] at hrace
      cases hrace
  | watched hof _ hrace _ ih =>
      obtain ⟨n, hreport⟩ := hof.report hp
      rw [hof.clock_eq, Clock.race_of_stopAt_eq_none hclock] at hrace
      cases hrace
      exact ih (hof.fresh hp).2 hclock (by rw [hreport, hstart]) ho

end Undisturbed

/-- If nothing is to stop and the sink refuses nothing for good, all attempts of
a plan are made. -/
theorem swept_undisturbed (hbuilt : c.Built) (hlenient : Sink.Lenient s.sink s.files)
    (frame : Frame) :
    ∃ p u, c.swept frame s.undisturbed = (.ok p, u)
      ∧ p.report.trials = numbered 1 (c.attempts frame c.plan s.sink s.files)
      ∧ u.offers = s.offers
        ++ (c.attempts frame c.plan s.sink s.files).map fun a => (a.encoded, a.result) := by
  obtain ⟨as, htries⟩ := c.swept_tries frame s.undisturbed
  have hplan : ∀ l ∈ c.plan, l.check = .ok () := fun l hl => hbuilt.check hl
  have hfirst := htries.prefix_attempts Progress.sound_empty
  have hsame : c.attempts frame c.plan (s.undisturbed.info (c.opening s.undisturbed)).sink
      (s.undisturbed.info (c.opening s.undisturbed)).files
        = c.attempts frame c.plan s.sink s.files :=
    c.attempts_muted frame c.plan s.sink s.files
  rw [hsame] at hfirst
  cases hswept : c.swept frame s.undisturbed with
  | mk o u =>
      rw [hswept] at htries
      cases o with
      | error f =>
          obtain ⟨a, e, hlast, hresult, hskip, -⟩ := htries.error Progress.sound_empty hplan
          have hfinal := final_of_mem_attempts hlenient (hfirst.subset (List.mem_of_getLast? hlast))
          rw [a.final_eq_false_iff.mp hfinal e hresult] at hskip
          cases hskip
      | ok p =>
          have hq : ∀ q, (.ok p : Outcome Progress) = .ok q → q.report.cancelled = false := by
            rintro q ⟨⟩
            exact htries.uncancelled Progress.sound_empty rfl rfl
          have has := (htries.eq_attempts Progress.sound_empty hplan hq).trans hsame
          refine ⟨p, u, rfl, by rw [htries.trials, has], ?_⟩
          rw [htries.offers, Session.offers_info, has]
          rfl

end Sweep

end Scanout
