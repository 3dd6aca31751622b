import Mathlib.Algebra.Order.Field.Basic
import Scanout.Proofs.CleaningUp
import Scanout.Proofs.Passes
import Scanout.Proofs.Rendering
import Scanout.Proofs.Rounding

/-!
# How displays end

A display of either kind lets its sink clean up when it ends: after the picture
or the passes, when everything is to stop, or with an error.  So what it did is
a number of offers and then one clean-up (`Session.Tidied`).

Two rates keep a live display from being begun, and then the sink is not
touched.  A rate of zero is refused.  Above two thousand million passes per
second the time between two passes is rounded to none, which is a fault
(`Live.period_eq_fault`).  A display that was begun meets a fault only where its
source does, or where no buffer can hold the box of the picture
(`Live.Sees.unreported`).
-/

namespace Scanout

/-! ## What is done by the end -/

namespace Session

variable {σ : Type} {s s' : Session σ} {offers : List (Encoded × Except Error Unit)}

/-- Since an earlier session these frames were offered, and then the sink
cleaned up once. -/
def Tidied (s s' : Session σ) (offers : List (Encoded × Except Error Unit)) : Prop :=
  s'.deeds = s.deeds ++ (offers.map (fun o => .offered o.1 o.2) ++ [.cleanedUp])

theorem Tidied.cleanUps (h : s.Tidied s' offers) : s'.cleanUps = s.cleanUps + 1 := by
  have hoffers : (offers.map fun o => Event.offered o.1 o.2).countP Event.isCleanUp = 0 := by
    rw [List.countP_map, List.countP_eq_zero]
    exact fun o _ => Bool.false_ne_true
  rw [cleanUps_eq, cleanUps_eq, h, List.countP_append, List.countP_append, hoffers]
  rfl

end Session

/-- No buffer can hold the box into which the pipeline fits a picture. -/
def Pipeline.Oversized (p : Pipeline) : Prop :=
  Frame.bufferLimit ≤ (p.offset.box p.layout.toSize).byteLength

/-- A picture is rendered, unless no buffer can hold its box. -/
theorem Pipeline.oversized_of_render {p : Pipeline} (ho : p.offset.InRange) {frame : Frame}
    {f : Failure}
    (h : p.render frame = .error f) : f = .fault ∧ p.Oversized := by
  obtain ⟨-, -, -, -, hfits, hlarge⟩ :=
    render_total (make_eq_ok p.filter p.offset p.layout_ok) ho frame
  cases Nat.lt_or_ge (p.offset.box p.layout.toSize).byteLength Frame.bufferLimit with
  | inl hlt =>
      obtain ⟨g, e, -, hrender, -⟩ := hfits hlt
      cases h.symm.trans hrender
  | inr hge =>
      cases h.symm.trans (hlarge hge)
      exact ⟨rfl, hge⟩

namespace Live

/-! ## Rates -/

/-- The nanoseconds between two passes. -/
def nanos (fps : Nat) : Int := Number.roundHalfEven (Number.quotient 1 fps * nanosPerSecond)

/-- The time between two passes is a second divided by the rate, but for two
roundings. -/
theorem nanos_error {fps : Nat} (h : 0 < fps) (hfps : fps < 2 ^ 53) :
    2000000000 * (1 / fps - 1 / fps / 9007199254740992 : Rat) - 1 ≤ 2 * nanos fps
      ∧ 2 * (nanos fps : Rat) ≤ 2000000000 * (1 / fps + 1 / fps / 9007199254740992) + 1 := by
  have hquotient := Number.quotient_error one_pos (by decide) h hfps
  have herror := Number.roundHalfEven_error (Number.quotient 1 fps * nanosPerSecond)
  have hsecond : ((nanosPerSecond : Nat) : Rat) = 1000000000 := rfl
  rw [Nat.cast_one] at hquotient
  rw [hsecond] at herror
  rw [nanos, hsecond]
  constructor
  · linarith
  · linarith

/-- Up to two thousand million passes per second there is time between two passes. -/
theorem exists_period {fps : Nat} (h : 0 < fps) (hfps : fps ≤ 2000000000) :
    ∃ n, period fps = .ok n := by
  have hnanos : 0 < nanos fps := by
    rcases Nat.lt_or_eq_of_le hfps with hlt | rfl
    · have hpos : (0 : Rat) < fps := by exact_mod_cast h
      have hbound : (fps : Rat) ≤ 1999999999 := by exact_mod_cast Nat.le_of_lt_succ hlt
      have hexact := one_div_le_one_div_of_le hpos hbound
      obtain ⟨herror, -⟩ := nanos_error h (by omega)
      have hpositive : (0 : Rat) < nanos fps := by linarith
      exact_mod_cast hpositive
    · decide +kernel
  obtain ⟨n, hn⟩ := Nat.exists_eq_succ_of_ne_zero (show (nanos fps).toNat ≠ 0 by omega)
  refine ⟨n + 1, ?_⟩
  rw [nanos] at hn
  rw [period, hn]
  rfl

/-- Above that there is none. -/
theorem period_eq_fault {fps : Nat} (h : 2000000000 < fps) (hfps : fps < 4294967296) :
    period fps = fault := by
  have hbound : (2000000001 : Rat) ≤ fps := by exact_mod_cast h
  have hexact := one_div_le_one_div_of_le (by decide) hbound
  obtain ⟨-, herror⟩ := nanos_error (Nat.zero_lt_of_lt h) (by omega)
  have hnanos : (nanos fps : Rat) < 1 := by linarith
  have hzero : (nanos fps).toNat = 0 :=
    Int.toNat_of_nonpos (Int.lt_add_one_iff.mp (by exact_mod_cast hnanos))
  rw [nanos] at hzero
  rw [period, hzero]
  rfl

/-! ## Failures that are not reported -/

variable {σ : Type} [Sink σ] {source : Source} {p : Pipeline} {o : Options} {period limit : Nat}
  {s s' t : Session σ} {st st' u v : State σ} {answer : Outcome Frame} {m : Pass} {ms : List Pass}
  {last : Option Pass} {r : Outcome Unit} {f : Failure}

/-- A pass ends in a failure that is no error only if the source did, or if no
buffer can hold the box. -/
theorem Sees.unreported (h : Sees p s answer m t) (ho : p.offset.InRange)
    (hm : m.outcome = .error f) (hf : ∀ e, f ≠ .error e) :
    answer = .error f ∨ f = .fault ∧ p.Oversized := by
  cases h with
  | missed =>
      cases hm
      exact .inl rfl
  | unrendered hrender =>
      cases hm
      exact .inr (Pipeline.oversized_of_render ho hrender)
  | @offered _ _ result _ _ _ =>
      rcases result with e | ⟨⟩
      · cases hm
        exact absurd rfl (hf e)
      · cases hm

/-- A display goes on for some passes and begins another, in which the source is
asked and this is what comes of it. -/
def Meets (p : Pipeline) (o : Options) (st : State σ) (result : Option (Outcome Frame)) : Prop :=
  ∃ ms v u, Goes p o st ms v ∧ Begins o v u ∧ u.acquired.result = result

/-- A display ends in a failure that is no error only if the source did, or
never answers, or if no buffer can hold the box. -/
theorem Ends.unreported (h : Ends p o v last (.error f) st') (ho : p.offset.InRange)
    (hf : ∀ e, f ≠ .error e) (hgoes : Goes p o st ms v) :
    Meets p o st (some (.error f)) ∨ (f = .fault ∧ p.Oversized)
      ∨ f = .stalled ∧ Meets p o st none := by
  cases h with
  | waiting hbegins hrace =>
      have hnone : st'.acquired.result = none := by
        cases hresult : st'.acquired.result with
        | none => rfl
        | some answer =>
            rw [State.wait, hresult] at hrace
            exact absurd hrace (Clock.race_ne_stalled _ _)
      exact .inr (.inr ⟨rfl, ms, v, _, hgoes, hbegins, hnone⟩)
  | failed hmakes houtcome _ =>
      obtain ⟨hbegins, ⟨-, hresult⟩, hsees⟩ := hmakes
      rcases hsees.unreported ho houtcome hf with rfl | hlarge
      · exact .inl ⟨ms, v, _, hgoes, hbegins, hresult⟩
      · exact .inr (.inl hlarge)

/-! ## Live displays -/

theorem Pass.toList_deed? (m : Pass) :
    m.deed?.toList = m.offer?.toList.map fun o => .offered o.1 o.2 := by
  cases m with
  | _ => rfl

/-- A pass is well if and only if its offer was taken. -/
theorem Pass.taken_iff (m : Pass) :
    m.outcome = .ok () ↔ ∃ encoded, m.offer?.toList = [(encoded, .ok ())] := by
  rcases m with f | ⟨frame, f⟩ | ⟨frame, encoded, e | ⟨⟩⟩
  all_goals simp [outcome, offer?]

theorem Pass.filterMap_deed? (ms : List Pass) :
    ms.filterMap deed? = (ms.filterMap offer?).map fun o => .offered o.1 o.2 := by
  rw [List.map_filterMap]
  rfl

/-- When a display has ended and the sink has cleaned up, the offers of its
passes and the clean-up are all that was done. -/
theorem Ends.tidied (h : Ends p o v last r st') (hgoes : Goes p o (begin source o period s) ms v) :
    s.Tidied st'.session.cleanUp ((ms ++ last.toList).filterMap Pass.offer?) := by
  have hbegin : (begin source o period s).session.deeds = s.deeds := Session.deeds_info s _
  rw [Session.Tidied, Session.deeds_cleanUp, h.deeds, hgoes.deeds, hbegin, ← Pass.filterMap_deed?,
    List.filterMap_append, List.append_assoc, List.append_assoc, List.append_assoc]

/-- A display whose number of passes is limited comes to its end. -/
theorem steps_isSome {max : Nat} (hmax : o.maxPasses = some max) (hlimit : 0 < limit)
    (hst : max < limit + st.stats.passes) : (steps p o limit st).isSome = true := by
  induction limit generalizing st with
  | zero => exact absurd hlimit (Nat.lt_irrefl 0)
  | succ limit ih =>
      rw [steps]
      obtain ⟨m, v, hmakes, hstep⟩ | ⟨r, v, -, hstep⟩ := step_cases p o st
      · rw [hstep]
        obtain ⟨w, hsettle⟩ | ⟨f, -, -, hsettle⟩ := settle_cases v m.outcome
        · rw [hsettle]
          obtain ⟨hstats, -⟩ := hmakes.keeps
          obtain ⟨-, hpasses, -⟩ := settle_eq_next hsettle
          have hle := hmakes.passes_le hmax
          have hnext : v.stats.passes = st.stats.passes + 1 := congrArg Stats.passes hstats
          exact ih (by omega) (by omega)
        · rw [hsettle]
          rfl
      · rw [hstep]
        rfl

section Runs

variable {result : Outcome Stats} (hfps : 0 < o.fps) (hperiod : Live.period o.fps = .ok period)
  (hrun : run limit source p o s = some (result, s'))
include hfps hperiod hrun

/-- A run that ends has made passes and then a last step. -/
theorem exists_ends :
    ∃ ms v last r st', Goes p o (begin source o period s) ms v ∧ Ends p o v last r st'
      ∧ finish (r, st') = (result, s') := by
  rw [run_eq hfps hperiod] at hrun
  obtain ⟨⟨r, st'⟩, hsteps, hfinish⟩ := Option.map_eq_some_iff.mp hrun
  obtain ⟨ms, v, last, hgoes, hends, -⟩ := steps_eq_some_iff.mp hsteps
  exact ⟨ms, v, last, r, st', hgoes, hends, hfinish⟩

/-- A live display that has ended, well or with an error, has let its sink clean
up after the last offer. -/
theorem exists_tidied (hfault : result ≠ .error .fault) (hstalled : result ≠ .error .stalled) :
    ∃ offers, s.Tidied s' offers := by
  obtain ⟨ms, v, last, r, st', hgoes, hends, hfinish⟩ := exists_ends hfps hperiod hrun
  have htidied := hends.tidied hgoes
  rcases r with (e | _ | _) | ⟨⟩
  all_goals cases hfinish
  · exact ⟨_, htidied⟩
  · exact absurd rfl hfault
  · exact absurd rfl hstalled
  · exact ⟨_, htidied⟩

end Runs

theorem run_unreported (hfps : 0 < o.fps) (hperiod : Live.period o.fps = .ok period)
    (hrun : run limit source p o s = some (.error f, s')) (ho : p.offset.InRange)
    (hf : ∀ e, f ≠ .error e) :
    Meets p o (begin source o period s) (some (.error f)) ∨ (f = .fault ∧ p.Oversized)
      ∨ f = .stalled ∧ Meets p o (begin source o period s) none := by
  obtain ⟨ms, v, last, r, st', hgoes, hends, hfinish⟩ := exists_ends hfps hperiod hrun
  have hr : r = .error f := by
    rcases r with (e | _ | _) | ⟨⟩
    all_goals cases hfinish
    · rfl
    · rfl
    · rfl
  rw [hr] at hends
  exact hends.unreported ho hf hgoes

end Live

/-! ## Single pictures -/

namespace Source

variable {σ : Type} [Sink σ]

/-- The source answers, and what becomes of its answer is what becomes of it in
a pass of a live display. -/
inductive Sees (source : Source) (p : Pipeline) (s : Session σ) : Live.Pass → Session σ → Prop where
  | picture {u answer m t} :
    (source.acquire s.currentFiles).result = some answer → u.deeds = s.deeds →
      Live.Sees p u answer m t → Sees source p s m t

/-- How it ends to show one picture. -/
inductive Shows (source : Source) (p : Pipeline) (s : Session σ) :
    Outcome Unit → Session σ → Prop where
  /-- The source never answers. -/
  | unanswered : (source.acquire s.currentFiles).result = none →
      Shows source p s (.error .stalled) s
  /-- The picture was shown until everything was to stop. -/
  | shown {m t} {u : Session σ} : Sees source p s m t → m.outcome = .ok () → u.deeds = t.deeds →
      Shows source p s (.ok ()) u.cleanUp
  /-- The picture is shown, and no moment to stop is known. -/
  | held {m t} {u : Session σ} :
      Sees source p s m t → m.outcome = .ok () → u.deeds = t.deeds → u.clock.stopAt = none →
      Shows source p s (.error .stalled) u
  /-- There is an error to report. -/
  | refused {m t e} : Sees source p s m t → m.outcome = .error (.error e) →
      Shows source p s (.error (.error e)) t.cleanUp
  | broken {m t f} : Sees source p s m t → m.outcome = .error f → (∀ e, f ≠ .error e) →
      Shows source p s (.error f) t

variable {source : Source} {p : Pipeline} {s s' t : Session σ} {m : Live.Pass} {r : Outcome Unit}
  {f : Failure}

theorem showOnce_sees {answer : Outcome Frame}
    (h : (source.acquire s.currentFiles).result = some answer) :
    ∃ m t, Sees source p s m t ∧ showOnce source p s = (m.outcome, t) := by
  obtain ⟨hdeeds, -⟩ := Session.notes_eq
    ({ s with clock := s.clock.advance (source.acquire s.currentFiles).delay } : Session σ)
    (source.acquire s.currentFiles).notes
  generalize hasked :
    ({ s with clock := s.clock.advance (source.acquire s.currentFiles).delay } : Session σ).notes
      (source.acquire s.currentFiles).notes = asked at hdeeds
  cases answer with
  | error f => exact ⟨_, asked, .picture h hdeeds .missed, by rw [showOnce, h, ← hasked]; rfl⟩
  | ok frame =>
      obtain ⟨m, hsees, hm⟩ :=
        Live.deliver_sees p (asked.info (introduction source frame p.layout)) (.ok frame)
      refine ⟨m, _, .picture h ((Session.deeds_info _ _).trans hdeeds) hsees, ?_⟩
      rw [← hm, showOnce, h, ← hasked]
      rfl

theorem show_shows (source : Source) (p : Pipeline) (s : Session σ) :
    Shows source p s (source.show p s).1 (source.show p s).2 := by
  cases hresult : (source.acquire s.currentFiles).result with
  | none =>
      rw [Source.show, showOnce, hresult]
      exact .unanswered hresult
  | some answer =>
      obtain ⟨m, t, hsees, honce⟩ := showOnce_sees (p := p) hresult
      rcases houtcome : m.outcome with (e | _ | _) | ⟨⟩
      all_goals rw [Source.show, honce, houtcome]
      · exact .refused hsees houtcome
      · exact .broken hsees houtcome fun e he => nomatch he
      · exact .broken hsees houtcome fun e he => nomatch he
      · -- The sink has taken the picture, which stays until everything is to stop.
        dsimp only
        generalize hheld :
          t.info ("Displaying on " ++ Sink.name t.sink ++ "; press Ctrl+C to stop") = held
        have hdeeds : held.deeds = t.deeds := hheld ▸ Session.deeds_info t _
        unfold Clock.race
        cases hstop : held.clock.stopAt with
        | none => exact .held hsees houtcome hdeeds hstop
        | some moment => exact .shown hsees houtcome hdeeds

theorem Sees.deeds (h : Sees source p s m t) :
    t.deeds = s.deeds ++ m.offer?.toList.map fun o => .offered o.1 o.2 := by
  obtain ⟨-, hbefore, hsees⟩ := h
  rw [hsees.deeds, hbefore, m.toList_deed?]

theorem Sees.tidied (h : Sees source p s m t) {u : Session σ} (hu : u.deeds = t.deeds) :
    s.Tidied u.cleanUp m.offer?.toList := by
  rw [Session.Tidied, Session.deeds_cleanUp, hu, h.deeds, List.append_assoc]

/-- A picture that is no longer shown was offered once or not at all, and then
the sink has cleaned up.  It was shown if and only if the sink took it. -/
theorem Shows.exists_tidied (h : Shows source p s r s') (hfault : r ≠ .error .fault)
    (hstalled : r ≠ .error .stalled) :
    ∃ offers, s.Tidied s' offers ∧ offers.length ≤ 1
      ∧ (r = .ok () ↔ ∃ encoded, offers = [(encoded, .ok ())]) := by
  have hlength : ∀ m : Live.Pass, m.offer?.toList.length ≤ 1 := by
    intro m
    cases m.offer? with
    | none => exact Nat.zero_le 1
    | some _ => exact Nat.le_refl 1
  cases h with
  | unanswered _ => exact absurd rfl hstalled
  | held _ _ _ _ => exact absurd rfl hstalled
  | shown hsees houtcome hdeeds =>
      exact ⟨_, hsees.tidied hdeeds, hlength _, fun _ =>
        (Live.Pass.taken_iff _).mp houtcome, fun _ => rfl⟩
  | @refused m _ e hsees houtcome =>
      refine ⟨_, hsees.tidied rfl, hlength _, fun h => (nomatch h), fun htaken => ?_⟩
      rw [m.taken_iff.mpr htaken] at houtcome
      cases houtcome
  | @broken _ _ f _ _ hf =>
      cases f with
      | error e => exact absurd rfl (hf e)
      | fault => exact absurd rfl hfault
      | stalled => exact absurd rfl hstalled

/-- To show a picture ends in a failure that is no error only if the source did,
or never answers, if no buffer can hold the box, or if the picture is shown for
ever. -/
theorem Shows.unreported (h : Shows source p s (.error f) s') (ho : p.offset.InRange)
    (hf : ∀ e, f ≠ .error e) :
    (source.acquire s.currentFiles).result = some (.error f) ∨ (f = .fault ∧ p.Oversized)
      ∨ f = .stalled ∧ ((source.acquire s.currentFiles).result = none
        ∨ s'.clock.stopAt = none
          ∧ ∃ encoded, s'.deeds = s.deeds ++ [.offered encoded (.ok ())]) := by
  cases h with
  | unanswered hresult => exact .inr (.inr ⟨rfl, .inl hresult⟩)
  | @held m _ _ hsees houtcome hdeeds hstop =>
      obtain ⟨encoded, hoffers⟩ := m.taken_iff.mp houtcome
      refine .inr (.inr ⟨rfl, .inr ⟨hstop, encoded, ?_⟩⟩)
      rw [hdeeds, hsees.deeds, hoffers]
      rfl
  | @refused _ _ e _ _ => exact absurd rfl (hf e)
  | broken hsees houtcome _ =>
      obtain ⟨hresult, -, hsees⟩ := hsees
      rcases hsees.unreported ho houtcome hf with rfl | hlarge
      · exact .inl hresult
      · exact .inr (.inl hlarge)

end Source

/-! ## Displays of either kind -/

section Displays

variable {σ : Type} [Sink σ]

/-- A live display with a rate of zero is refused, and one with a rate of more
than two thousand million is a fault, and then nothing was done to the sink.
With every other rate it is begun, and it comes to an end if its number of
passes is limited.  However it ends, the frames were offered first and then the
sink has cleaned up once.  It meets a fault only if the source does or no buffer
can hold the box of the picture, and it waits for ever only for the source.

The same is true of a single picture, which is offered once at most.  It was
shown if and only if the sink took it. -/
theorem displays_clean_up (source : Source) (p : Pipeline) (ho : p.offset.InRange) (s : Session σ) :
    (∀ (o : Live.Options) (limit : Nat), o.fps < 4294967296 →
        (o.fps = 0 →
            Live.run limit source p o s
              = some (report (.config "fps" "frame rate must be positive"), s))
          ∧ (2000000000 < o.fps → Live.run limit source p o s = some (fault, s))
          ∧ (0 < o.fps → o.fps ≤ 2000000000 → ∃ period, Live.period o.fps = .ok period
              ∧ (∀ max, o.maxPasses = some max → max < limit →
                (Live.run limit source p o s).isSome = true)
              ∧ ∀ r s', Live.run limit source p o s = some (r, s') →
                  (r ≠ .error .fault → r ≠ .error .stalled →
                    s'.cleanUps = s.cleanUps + 1 ∧ ∃ offers, s.Tidied s' offers)
                  ∧ (r = .error .fault → p.Oversized
                    ∨ Live.Meets p o (Live.begin source o period s) (some (.error .fault)))
                  ∧ (r = .error .stalled → Live.Meets p o (Live.begin source o period s) none
                    ∨ Live.Meets p o (Live.begin source o period s) (some (.error .stalled)))))
      ∧ ∀ r s', source.show p s = (r, s') →
          (r ≠ .error .fault → r ≠ .error .stalled →
            s'.cleanUps = s.cleanUps + 1
              ∧ ∃ offers, s.Tidied s' offers ∧ offers.length ≤ 1
                ∧ (r = .ok () ↔ ∃ encoded, offers = [(encoded, .ok ())]))
          ∧ (r = .error .fault → p.Oversized
            ∨ (source.acquire s.currentFiles).result = some (.error .fault))
          ∧ (r = .error .stalled → (source.acquire s.currentFiles).result = none
            ∨ (source.acquire s.currentFiles).result = some (.error .stalled)
            ∨ s'.clock.stopAt = none
              ∧ ∃ encoded, s'.deeds = s.deeds ++ [.offered encoded (.ok ())]) := by
  have hfault : ∀ e, Failure.fault ≠ .error e := fun e he => nomatch he
  have hstalled : ∀ e, Failure.stalled ≠ .error e := fun e he => nomatch he
  refine ⟨fun o limit hfps => ⟨fun hzero => ?_, fun hlarge => ?_, fun hpos hle => ?_⟩,
    fun r s' hshow => ?_⟩
  · rw [Live.run, Live.start, if_pos hzero]
    rfl
  · rw [Live.run, Live.start, if_neg (by omega), Live.period_eq_fault hlarge hfps]
    rfl
  · obtain ⟨period, hperiod⟩ := Live.exists_period hpos hle
    refine ⟨period, hperiod, fun max hmax hlimit => ?_, fun r s' hrun => ⟨fun hr hr' => ?_, ?_, ?_⟩⟩
    · rw [Live.run_eq hpos hperiod, Option.isSome_map]
      exact Live.steps_isSome hmax (Nat.zero_lt_of_lt hlimit) (Nat.lt_add_right _ hlimit)
    · obtain ⟨offers, htidied⟩ := Live.exists_tidied hpos hperiod hrun hr hr'
      exact ⟨htidied.cleanUps, offers, htidied⟩
    · rintro rfl
      rcases Live.run_unreported hpos hperiod hrun ho hfault with hmeets | ⟨-, hlarge⟩ | ⟨hne, -⟩
      · exact .inr hmeets
      · exact .inl hlarge
      · cases hne
    · rintro rfl
      rcases Live.run_unreported hpos hperiod hrun ho hstalled with hmeets | ⟨hne, -⟩ | ⟨-, hmeets⟩
      · exact .inr hmeets
      · cases hne
      · exact .inl hmeets
  · have hshows := Source.show_shows source p s
    rw [hshow] at hshows
    refine ⟨fun hr hr' => ?_, ?_, ?_⟩
    · obtain ⟨offers, htidied, hrest⟩ := hshows.exists_tidied hr hr'
      exact ⟨htidied.cleanUps, offers, htidied, hrest⟩
    · rintro rfl
      rcases hshows.unreported ho hfault with hresult | ⟨-, hlarge⟩ | ⟨hne, -⟩
      · exact .inr hresult
      · exact .inl hlarge
      · cases hne
    · rintro rfl
      rcases hshows.unreported ho hstalled with hresult | ⟨hne, -⟩ | ⟨-, hnone | hheld⟩
      · exact .inr (.inl hresult)
      · cases hne
      · exact .inl hnone
      · exact .inr (.inr hheld)

end Displays

/-- At the highest rate a sink that refuses the second frame for good ends the
display, and has cleaned up.  A picture on the same sink is shown until
everything is to stop. -/
theorem displays_clean_up_small :
    let source : Source := .script "still" [⟨0, some (.ok smallPicture)⟩]
    let p : Pipeline := { layout := smallLayout, layout_ok := by decide }
    let o : Live.Options := { fps := 2000000000 }
    let s : Session ScriptedSink :=
      { clock := { stopAt := some 9 }, sink := { failures := [(2, .io "writing" "gone")] } }
    p.offset.InRange ∧ o.fps < 4294967296
      ∧ (∃ s', Live.run 4 source p o s = some (.error (.error (.io "writing" "gone")), s')
        ∧ s'.cleanUps = 1)
      ∧ (source.show p s).1 = .ok () ∧ (source.show p s).2.cleanUps = 1 := by
  intro source p o s
  have ho : p.offset.InRange := ⟨by decide, by decide, by decide, by decide⟩
  have hfailed : (Live.run 4 source p o s).map (fun ended => match ended.1 with
      | .error f => some f
      | .ok _ => none) = some (some (.error (.io "writing" "gone"))) := by decide +kernel
  have hshown : (source.show p s).1 = .ok () := by decide +kernel
  obtain ⟨hlive, hshow⟩ := displays_clean_up source p ho s
  obtain ⟨-, -, hbegun⟩ := hlive o 4 (by decide)
  obtain ⟨period, -, -, hends⟩ := hbegun (by decide) (by decide)
  obtain ⟨hpicture, -⟩ := hshow _ _ (Prod.eta _).symm
  refine ⟨ho, by decide, ?_, hshown, ?_⟩
  · obtain ⟨⟨r, s'⟩, hrun, hr⟩ := Option.map_eq_some_iff.mp hfailed
    obtain ⟨htidied, -⟩ := hends r s' hrun
    cases r with
    | ok stats => cases hr
    | error f =>
        cases hr
        exact ⟨s', hrun, (htidied nofun nofun).1⟩
  · rw [hshown] at hpicture
    exact (hpicture nofun nofun).1

/-- The highest rate that a 32-bit count gives is a fault, a rate of zero is
refused, and in neither case does the sink clean up. -/
theorem Live.run_untidied :
    let source : Source := .script "still" [⟨0, some (.ok smallPicture)⟩]
    let p : Pipeline := { layout := smallLayout, layout_ok := by decide }
    let s : Session ScriptedSink := { sink := {} }
    Live.run 1 source p { fps := 4294967295, maxPasses := some 0 } s = some (fault, s)
      ∧ Live.run 1 source p { fps := 0 } s
        = some (report (.config "fps" "frame rate must be positive"), s)
      ∧ s.cleanUps = 0 := by
  intro source p s
  refine ⟨?_, rfl, rfl⟩
  rw [run, start, if_neg (by decide), period_eq_fault (by decide) (by decide)]
  rfl

end Scanout
