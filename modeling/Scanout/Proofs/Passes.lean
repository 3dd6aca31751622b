import Scanout.Display
import Scanout.Proofs.Encoding
import Scanout.Proofs.SessionHistory

/-!
# A live display, pass by pass

A pass is begun when its tick comes (`Live.Begins`).  It is seen through when
the source has answered: then it comes to a `Live.Pass`, which says how far the
frame got.  `Live.Makes` relates a display to the pass that it makes and to the
display after it, and `Live.Goes` to several passes after which it goes on.
`Live.Ends` has one rule for each way in which a display ends.

`Live.step_cases` says that a step is one or the other, and
`Live.steps_eq_some_iff` that a display which has ended made passes that go on
and then a last step.  What a display adds to its counters and to its journal is
proved for one pass and then, by induction on `Goes`, for all of them.
-/

namespace Scanout

/-- A display goes on after a pass that ends in this failure. -/
def Failure.skippable : Failure → Bool
  | .error e => e.skippable
  | _ => false

theorem Failure.skippable_iff {f : Failure} :
    f.skippable = true ↔ ∃ e, f = .error e ∧ e.skippable = true := by
  cases f with
  | error e => exact ⟨fun h => ⟨e, rfl, h⟩, fun ⟨_, heq, h⟩ => by cases heq; exact h⟩
  | fault => exact ⟨fun h => (nomatch h), fun ⟨_, heq, _⟩ => nomatch heq⟩
  | stalled => exact ⟨fun h => (nomatch h), fun ⟨_, heq, _⟩ => nomatch heq⟩

namespace Live

/-! ## Passes -/

/-- A pass that was seen through. -/
inductive Pass where
  /-- The source gave no frame. -/
  | missed (f : Failure)
  /-- The frame could not be rendered. -/
  | unrendered (frame : Frame) (f : Failure)
  /-- The frame was rendered and offered to the sink. -/
  | offered (frame : Frame) (encoded : Encoded) (result : Except Error Unit)

namespace Pass

/-- What the pass comes to. -/
def outcome : Pass → Outcome Unit
  | missed f => .error f
  | unrendered _ f => .error f
  | offered _ _ (.error e) => .error (.error e)
  | offered _ _ (.ok ()) => .ok ()

/-- What the source answered. -/
def answer : Pass → Outcome Frame
  | missed f => .error f
  | unrendered frame _ => .ok frame
  | offered frame _ _ => .ok frame

/-- What was offered to the sink, and whether it was taken. -/
def offer? : Pass → Option (Encoded × Except Error Unit)
  | offered _ encoded result => some (encoded, result)
  | _ => none

/-- What the sink took. -/
def accepted? : Pass → Option Encoded
  | offered _ encoded (.ok ()) => some encoded
  | _ => none

/-- The pass as the journal has it. -/
def deed? (m : Pass) : Option Event := m.offer?.map fun (encoded, result) => .offered encoded result

theorem outcome_eq_ok_iff {m : Pass} : m.outcome = .ok () ↔ m.accepted?.isSome = true := by
  rcases m with f | ⟨frame, f⟩ | ⟨frame, encoded, e | ⟨⟩⟩
  all_goals simp [outcome, accepted?]

theorem offer?_deed? (m : Pass) : m.deed?.bind Event.offer? = m.offer? := by
  cases m with
  | _ => rfl

theorem accepted?_deed? (m : Pass) : m.deed?.bind Event.accepted? = m.accepted? := by
  rcases m with f | ⟨frame, f⟩ | ⟨frame, encoded, e | ⟨⟩⟩
  all_goals rfl

/-- A display goes on after the pass. -/
def Passable (m : Pass) : Prop :=
  m.outcome = .ok () ∨ ∃ e, m.outcome = .error (.error e) ∧ e.skippable = true

end Pass

/-! ## How a pass is counted -/

section Settling

variable {σ : Type} {v w : State σ} {r : Outcome Unit}

/-- The counters of a display that count passes without a frame on the device. -/
def Stats.failures (stats : Stats) : Nat := stats.sourceFailures + stats.sinkFailures

/-- A pass after which the display goes on is counted, and otherwise only the
log changes. -/
theorem settle_eq_next (h : settle v r = .next w) :
    (r = .ok () ∧ w.stats.delivered = v.stats.delivered + 1 ∧ w.stats.failures = v.stats.failures
        ∨ (∃ e, r = .error (.error e) ∧ e.skippable = true) ∧ w.stats.delivered = v.stats.delivered
          ∧ w.stats.failures = v.stats.failures + 1)
      ∧ w.stats.passes = v.stats.passes ∧ w.session.deeds = v.session.deeds
      ∧ w.session.clock = v.session.clock ∧ w.session.files = v.session.files
      ∧ w.session.sink = v.session.sink := by
  unfold settle at h
  split at h
  · cases h
    exact ⟨.inl ⟨rfl, rfl, rfl⟩, rfl, rfl, rfl, rfl, rfl⟩
  · cases h
    refine ⟨.inr ⟨⟨_, rfl, rfl⟩, rfl, ?_⟩, rfl, Session.deeds_warn _ _, rfl, rfl, rfl⟩
    exact Nat.add_right_comm _ _ _
  · cases h
    exact ⟨.inr ⟨⟨_, rfl, rfl⟩, rfl, rfl⟩, rfl, Session.deeds_warn _ _, rfl, rfl, rfl⟩
  · cases h

theorem settle_of_skippable {f : Failure} (h : f.skippable = true) :
    ∃ w, settle v (.error f) = .next w := by
  obtain ⟨e, rfl, he⟩ := Failure.skippable_iff.mp h
  cases e with
  | sourceUnavailable origin reason => exact ⟨_, rfl⟩
  | sinkWriteFailure target reason => exact ⟨_, rfl⟩
  | _ => cases he

/-- The display ends with a failure that it does not step over. -/
theorem settle_of_not_skippable {f : Failure} (h : f.skippable = false) :
    settle v (.error f) = .done (.error f) v := by
  unfold settle
  split
  · contradiction
  · rename_i heq
    cases heq
    cases h
  · rename_i heq
    cases heq
    cases h
  · rename_i heq
    cases heq
    rfl

theorem exhausted_iff {o : Options} {stats : Stats} :
    exhausted o stats = true ↔ ∃ max, o.maxPasses = some max ∧ max ≤ stats.passes := by
  unfold exhausted
  cases o.maxPasses with
  | none => simp
  | some max => simp

theorem settle_cases (v : State σ) (r : Outcome Unit) :
    (∃ w, settle v r = .next w)
      ∨ ∃ f, r = .error f ∧ f.skippable = false ∧ settle v r = .done r v := by
  cases r with
  | ok u => exact .inl ⟨_, rfl⟩
  | error f =>
      cases hf : f.skippable with
      | true => exact .inl (settle_of_skippable hf)
      | false => exact .inr ⟨f, rfl, hf, settle_of_not_skippable hf⟩

end Settling

/-! ## Making passes -/

variable {σ : Type} [Sink σ]

/-- What becomes of the answer of a source. -/
inductive Sees (p : Pipeline) (s : Session σ) : Outcome Frame → Pass → Session σ → Prop where
  | missed {f} : Sees p s (.error f) (.missed f) s
  | unrendered {frame f} : p.render frame = .error f → Sees p s (.ok frame) (.unrendered frame f) s
  | offered {frame encoded result t} :
      p.render frame = .ok encoded → s.offer encoded = (result, t) →
      Sees p s (.ok frame) (.offered frame encoded result) t

/-- A tick came, and the next pass is begun. -/
inductive Begins (o : Options) (st : State σ) : State σ → Prop where
  | tick {clock} : exhausted o st.stats = false →
      st.session.clock.race (some (st.ticker.delay st.session.clock.now)) = .reached clock →
      Begins o st { st with
        ticker := st.ticker.next clock.now
        stats := { st.stats with passes := st.stats.passes + 1 }
        session := { st.session with clock } }

/-- What becomes of asking the source now. -/
def State.acquired (st : State σ) : Acquired := st.source.acquire st.session.currentFiles

/-- How long the source takes to answer, if it ever does. -/
def State.wait (st : State σ) : Option Nat := st.acquired.result.map fun _ => st.acquired.delay

/-- The source answers, and no moment to stop comes first. -/
inductive Answers (st : State σ) : Outcome Frame → State σ → Prop where
  | frame {clock answer} :
      st.session.clock.race st.wait = .reached clock → st.acquired.result = some answer →
      Answers st answer { st with
        source := st.acquired.source
        session := ({ st.session with clock } : Session σ).notes st.acquired.notes }

/-- A pass is begun and seen through. -/
inductive Makes (p : Pipeline) (o : Options) (st : State σ) : Pass → State σ → Prop where
  | pass {u v answer m t} : Begins o st u → Answers u answer v → Sees p v.session answer m t →
      Makes p o st m { v with session := t }

/-- A pass is begun, and the moment to stop comes before the answer of the source. -/
def BrokenOff (o : Options) (st : State σ) : Prop :=
  ∃ u clock, Begins o st u ∧ u.session.clock.race u.wait = .stopped clock

/-- The display makes these passes and goes on after each. -/
inductive Goes (p : Pipeline) (o : Options) : State σ → List Pass → State σ → Prop where
  | refl {st} : Goes p o st [] st
  | pass {st m v w ms st'} : Makes p o st m v → settle v m.outcome = .next w → Goes p o w ms st' →
      Goes p o st (m :: ms) st'

/-- The display ends, with a last pass or without one. -/
inductive Ends (p : Pipeline) (o : Options) (st : State σ) :
    Option Pass → Outcome Unit → State σ → Prop where
  | full : exhausted o st.stats = true → Ends p o st none (.ok ()) st
  | unbegun {clock} : exhausted o st.stats = false →
      st.session.clock.race (some (st.ticker.delay st.session.clock.now)) = .stopped clock →
      Ends p o st none (.ok ()) { st with session := { st.session with clock } }
  | brokenOff {u clock} : Begins o st u → u.session.clock.race u.wait = .stopped clock →
      Ends p o st none (.ok ()) { u with session := { u.session with clock } }
  | waiting {u} : Begins o st u → u.session.clock.race u.wait = .stalled →
      Ends p o st none (.error .stalled) u
  | failed {m v f} : Makes p o st m v → m.outcome = .error f → f.skippable = false →
      Ends p o st (some m) (.error f) v

/-! ## One step -/

variable {p : Pipeline} {o : Options} {s t : Session σ} {st st' u v w : State σ} {m : Pass}
  {ms : List Pass} {r : Outcome Unit}

theorem deliver_sees (p : Pipeline) (s : Session σ) (answer : Outcome Frame) :
    ∃ m, Sees p s answer m (deliver p s answer).2 ∧ (deliver p s answer).1 = m.outcome := by
  unfold deliver
  cases answer with
  | error f => exact ⟨_, .missed, rfl⟩
  | ok frame =>
      dsimp only
      cases hrender : p.render frame with
      | error f => exact ⟨_, .unrendered hrender, rfl⟩
      | ok encoded =>
          dsimp only
          rcases hoffer : s.offer encoded with ⟨e | ⟨⟩, t⟩
          · exact ⟨_, .offered hrender hoffer, rfl⟩
          · exact ⟨_, .offered hrender hoffer, rfl⟩

theorem deliver_of_sees {answer : Outcome Frame} (h : Sees p s answer m t) :
    deliver p s answer = (m.outcome, t) := by
  cases h with
  | missed => rfl
  | unrendered hrender => rw [deliver, hrender]; rfl
  | @offered _ _ result _ hrender hoffer =>
      rw [deliver, hrender]
      dsimp only
      rw [hoffer]
      rcases result with e | ⟨⟩
      · rfl
      · rfl

/-- A wait for something that never comes ends with the moment to stop, or not
at all. -/
theorem race_none_ne_reached {c c' : Clock} : c.race none ≠ .reached c' := by
  unfold Clock.race
  cases c.stopAt with
  | none => exact nofun
  | some t => exact nofun

/-- Once a pass is begun, the source is asked, and its answer is seen through if
it comes. -/
theorem step_of_begins (p : Pipeline) (h : Begins o st u) :
    step p o st = match u.session.clock.race u.wait, u.acquired.result with
      | .reached clock, some answer =>
          settle { u with
            source := u.acquired.source
            session := (deliver p
              (({ u.session with clock } : Session σ).notes u.acquired.notes) answer).2 }
            (deliver p (({ u.session with clock } : Session σ).notes u.acquired.notes) answer).1
      | .stopped clock, _ => .done (.ok ()) { u with session := { u.session with clock } }
      | _, _ => .done (.error .stalled) u := by
  cases h with
  | tick hfull htick =>
      unfold step
      rw [hfull, htick]
      rfl

theorem step_of_makes (h : Makes p o st m v) : step p o st = settle v m.outcome := by
  obtain @⟨u, _, answer, _, t, hbegins, ⟨hrace, hresult⟩, hsees⟩ := h
  rw [step_of_begins p hbegins, hrace, hresult]
  dsimp only
  rw [deliver_of_sees hsees]

/-- A step makes a pass, or it is the last. -/
theorem step_cases (p : Pipeline) (o : Options) (st : State σ) :
    (∃ m v, Makes p o st m v ∧ step p o st = settle v m.outcome)
      ∨ ∃ r st', Ends p o st none r st' ∧ step p o st = .done r st' := by
  cases hfull : exhausted o st.stats with
  | true => exact .inr ⟨_, _, .full hfull, by rw [step, hfull]; rfl⟩
  | false =>
      cases htick : st.session.clock.race (some (st.ticker.delay st.session.clock.now)) with
      | stalled => exact absurd htick (st.session.clock.race_ne_stalled _)
      | stopped clock => exact .inr ⟨_, _, .unbegun hfull htick, by rw [step, hfull, htick]; rfl⟩
      | reached clock =>
          obtain ⟨u, hbegins⟩ : ∃ u, Begins o st u := ⟨_, .tick hfull htick⟩
          rw [step_of_begins p hbegins]
          cases hrace : u.session.clock.race u.wait with
          | stalled => exact .inr ⟨_, _, .waiting hbegins hrace, rfl⟩
          | stopped clock => exact .inr ⟨_, _, .brokenOff hbegins hrace, rfl⟩
          | reached clock =>
              cases hresult : u.acquired.result with
              | none =>
                  rw [State.wait, hresult] at hrace
                  exact absurd hrace race_none_ne_reached
              | some answer =>
                  obtain ⟨m, hsees, hm⟩ := deliver_sees p
                    (({ u.session with clock } : Session σ).notes u.acquired.notes) answer
                  dsimp only
                  rw [hm]
                  exact .inl ⟨m, _, .pass hbegins (.frame hrace hresult) hsees, rfl⟩

theorem step_of_ends {last : Option Pass} (h : Ends p o st last r st') :
    step p o st = .done r st' := by
  cases h with
  | full hfull => rw [step, hfull]; rfl
  | unbegun hfull htick => rw [step, hfull, htick]; rfl
  | brokenOff hbegins hrace => rw [step_of_begins p hbegins, hrace]
  | waiting hbegins hrace => rw [step_of_begins p hbegins, hrace]
  | failed hmakes houtcome hskip =>
      rw [step_of_makes hmakes, houtcome, settle_of_not_skippable hskip]

/-! ## Many steps -/

theorem steps_of_goes (h : Goes p o st ms u) (n : Nat) :
    steps p o (ms.length + n) st = steps p o n u := by
  induction h with
  | refl => rw [List.length_nil, Nat.zero_add]
  | pass hmakes hsettle _ ih =>
      rw [List.length_cons, Nat.add_right_comm, steps, step_of_makes hmakes, hsettle]
      exact ih

/-- A display that has ended by a number of steps has made passes after which it
went on, and then ended. -/
theorem steps_eq_some_iff {limit : Nat} : steps p o limit st = some (r, st')
    ↔ ∃ ms u last, Goes p o st ms u ∧ Ends p o u last r st' ∧ ms.length < limit := by
  constructor
  · intro h
    induction limit generalizing st with
    | zero => cases h
    | succ limit ih =>
        rw [steps] at h
        obtain ⟨m, v, hmakes, hstep⟩ | ⟨r', v, hends, hstep⟩ := step_cases p o st
        · rw [hstep] at h
          obtain ⟨w, hsettle⟩ | ⟨f, hm, hskip, hsettle⟩ := settle_cases v m.outcome
          · rw [hsettle] at h
            obtain ⟨ms, u, last, hgoes, hends, hlength⟩ := ih h
            exact ⟨m :: ms, u, last, .pass hmakes hsettle hgoes, hends, Nat.succ_lt_succ hlength⟩
          · rw [hsettle, hm] at h
            cases h
            exact ⟨[], st, some m, .refl, .failed hmakes hm hskip, Nat.succ_pos limit⟩
        · rw [hstep] at h
          cases h
          exact ⟨[], st, none, .refl, hends, Nat.succ_pos limit⟩
  · rintro ⟨ms, u, last, hgoes, hends, hlength⟩
    obtain ⟨n, rfl⟩ := Nat.exists_eq_add_of_lt hlength
    rw [Nat.add_assoc, steps_of_goes hgoes, steps, step_of_ends hends]

/-! ## What one pass does -/

section Makes

variable {answer : Outcome Frame}

theorem Sees.deeds (h : Sees p s answer m t) : t.deeds = s.deeds ++ m.deed?.toList := by
  cases h with
  | missed => exact (List.append_nil _).symm
  | unrendered _ => exact (List.append_nil _).symm
  | @offered _ encoded _ _ _ hoffer =>
      have hdeeds := s.deeds_offer encoded
      rw [hoffer] at hdeeds
      exact hdeeds

theorem Sees.reaches (h : Sees p s answer m t) : Sink.Reaches s.sink s.files t.sink t.files := by
  cases h with
  | missed => exact .refl
  | unrendered _ => exact .refl
  | offered _ hoffer => exact Session.reaches_offer hoffer

omit [Sink σ] in
theorem Begins.keeps (h : Begins o st u) :
    exhausted o st.stats = false ∧ u.stats = { st.stats with passes := st.stats.passes + 1 }
      ∧ u.session.deeds = st.session.deeds ∧ u.session.files = st.session.files
      ∧ u.session.sink = st.session.sink := by
  obtain ⟨hopen, -⟩ := h
  exact ⟨hopen, rfl, rfl, rfl, rfl⟩

omit [Sink σ] in
theorem Answers.keeps (h : Answers u answer v) :
    v.stats = u.stats ∧ v.session.deeds = u.session.deeds ∧ v.session.files = u.session.files
      ∧ v.session.sink = u.session.sink := by
  obtain @⟨clock, -, -, -⟩ := h
  obtain ⟨hdeeds, -, hfiles, hsink, -⟩ :=
    ({ u.session with clock } : Session σ).notes_eq u.acquired.notes
  exact ⟨rfl, hdeeds, hfiles, hsink⟩

/-- A pass is counted once, and its offer is all that it does to the world. -/
theorem Makes.keeps (h : Makes p o st m v) :
    v.stats = { st.stats with passes := st.stats.passes + 1 }
      ∧ v.session.deeds = st.session.deeds ++ m.deed?.toList
      ∧ Sink.Reaches st.session.sink st.session.files v.session.sink v.session.files := by
  obtain ⟨hbegins, hanswers, hsees⟩ := h
  obtain ⟨-, hstats, hdeeds, hfiles, hsink⟩ := hbegins.keeps
  obtain ⟨hstats', hdeeds', hfiles', hsink'⟩ := hanswers.keeps
  have hreaches := hsees.reaches
  rw [hfiles', hsink', hfiles, hsink] at hreaches
  exact ⟨hstats'.trans hstats, hsees.deeds.trans (congrArg (· ++ _) (hdeeds'.trans hdeeds)),
    hreaches⟩

/-- A display that makes a pass has not used up its number of passes. -/
theorem Makes.passes_le (h : Makes p o st m v) {max : Nat} (hmax : o.maxPasses = some max) :
    v.stats.passes ≤ max := by
  obtain ⟨hstats, -, -⟩ := h.keeps
  obtain ⟨hbegins, -, -⟩ := h
  obtain ⟨hopen, -⟩ := hbegins.keeps
  rw [hstats]
  refine Nat.lt_of_not_le fun hle => ?_
  rw [exhausted_iff.mpr ⟨max, hmax, hle⟩] at hopen
  cases hopen

/-- What a pass offers is the frame of that pass, rendered. -/
theorem Makes.render (h : Makes p o st m v) : ∀ encoded result, m.offer? = some (encoded, result) →
    ∃ frame, m.answer = .ok frame ∧ p.render frame = .ok encoded := by
  obtain ⟨-, -, hsees⟩ := h
  cases hsees with
  | missed => exact nofun
  | unrendered _ => exact nofun
  | offered hrender _ =>
      intro encoded result hoffer
      cases hoffer
      exact ⟨_, rfl, hrender⟩

end Makes

/-! ## What many passes do -/

namespace Goes

/-- The display goes on after each of these passes. -/
theorem passable (h : Goes p o st ms u) : ∀ m ∈ ms, m.Passable := by
  induction h with
  | refl => exact fun m hm => nomatch hm
  | pass _ hsettle _ ih =>
      refine List.forall_mem_cons.mpr ⟨?_, ih⟩
      obtain ⟨⟨hok, -⟩ | ⟨herror, -⟩, -⟩ := settle_eq_next hsettle
      · exact .inl hok
      · exact .inr herror

theorem render (h : Goes p o st ms u) :
    ∀ m ∈ ms, ∀ encoded result, m.offer? = some (encoded, result) →
    ∃ frame, m.answer = .ok frame ∧ p.render frame = .ok encoded := by
  induction h with
  | refl => exact fun m hm => nomatch hm
  | pass hmakes _ _ ih => exact List.forall_mem_cons.mpr ⟨hmakes.render, ih⟩

/-- Offers, and nothing else, are what passes do to the world. -/
theorem deeds (h : Goes p o st ms u) :
    u.session.deeds = st.session.deeds ++ ms.filterMap Pass.deed? := by
  induction h with
  | refl => exact (List.append_nil _).symm
  | @pass _ m _ _ ms _ hmakes hsettle _ ih =>
      obtain ⟨-, hdeeds, -⟩ := hmakes.keeps
      obtain ⟨-, -, hsettled, -⟩ := settle_eq_next hsettle
      rw [ih, hsettled, hdeeds, List.append_assoc]
      cases hdeed : m.deed? with
      | none => rw [List.filterMap_cons_none hdeed]; rfl
      | some e => rw [List.filterMap_cons_some hdeed]; rfl

theorem reaches (h : Goes p o st ms u) :
    Sink.Reaches st.session.sink st.session.files u.session.sink u.session.files := by
  induction h with
  | refl => exact .refl
  | pass hmakes hsettle _ ih =>
      obtain ⟨-, -, hreaches⟩ := hmakes.keeps
      obtain ⟨-, -, -, -, hfiles, hsink⟩ := settle_eq_next hsettle
      rw [hfiles, hsink] at ih
      exact hreaches.trans ih

/-- Every pass is counted, and it is counted either as delivered or as failed. -/
theorem stats (h : Goes p o st ms u) :
    u.stats.passes = st.stats.passes + ms.length
      ∧ u.stats.delivered = st.stats.delivered + (ms.filterMap Pass.accepted?).length
      ∧ u.stats.delivered + u.stats.failures
        = st.stats.delivered + st.stats.failures + ms.length := by
  induction h with
  | refl => exact ⟨rfl, rfl, rfl⟩
  | @pass st m v w ms _ hmakes hsettle _ ih =>
      obtain ⟨hpasses, hdelivered, hsum⟩ := ih
      obtain ⟨hmade, -, -⟩ := hmakes.keeps
      obtain ⟨hcount, hsettled, -⟩ := settle_eq_next hsettle
      have hnumber : w.stats.passes = st.stats.passes + 1 := by rw [hsettled, hmade]
      have hbefore : v.stats.delivered = st.stats.delivered
          ∧ v.stats.failures = st.stats.failures := by
        rw [hmade]
        exact ⟨rfl, rfl⟩
      rw [List.length_cons]
      rcases hcount with ⟨hok, hplus, hsame⟩ | ⟨⟨e, herror, -⟩, hsame, hplus⟩
      · obtain ⟨encoded, haccepted⟩ := Option.isSome_iff_exists.mp (Pass.outcome_eq_ok_iff.mp hok)
        rw [List.filterMap_cons_some haccepted, List.length_cons]
        omega
      · have haccepted : m.accepted? = none := by
          rw [← Option.not_isSome_iff_eq_none, ← Pass.outcome_eq_ok_iff, herror]
          exact nofun
        rw [List.filterMap_cons_none haccepted]
        omega

/-- A display goes on only until its number of passes is used up. -/
theorem passes_le (h : Goes p o st ms u) {max : Nat} (hmax : o.maxPasses = some max)
    (hst : st.stats.passes ≤ max) :
    u.stats.passes ≤ max := by
  induction h with
  | refl => exact hst
  | pass hmakes hsettle _ ih =>
      obtain ⟨-, hpasses, -⟩ := settle_eq_next hsettle
      exact ih (hpasses ▸ hmakes.passes_le hmax)

end Goes

/-! ## The end of a display -/

theorem Ends.deeds {last : Option Pass} (h : Ends p o st last r st') :
    st'.session.deeds = st.session.deeds ++ last.toList.filterMap Pass.deed? := by
  have hbegun : ∀ {u : State σ}, Begins o st u → u.session.deeds = st.session.deeds :=
    fun h => h.keeps.2.2.1
  cases h with
  | full _ => exact (List.append_nil _).symm
  | unbegun _ _ => exact (List.append_nil _).symm
  | brokenOff hbegins _ => exact (hbegun hbegins).trans (List.append_nil _).symm
  | waiting hbegins _ => exact (hbegun hbegins).trans (List.append_nil _).symm
  | @failed m _ _ hmakes _ _ =>
      obtain ⟨-, hdeeds, -⟩ := hmakes.keeps
      rw [hdeeds, Option.toList_some]
      cases hdeed : m.deed? with
      | none => rw [List.filterMap_cons_none hdeed]; rfl
      | some e => rw [List.filterMap_cons_some hdeed]; rfl

theorem Ends.reaches {last : Option Pass} (h : Ends p o st last r st') :
    Sink.Reaches st.session.sink st.session.files st'.session.sink st'.session.files := by
  have hbegun : ∀ {u : State σ}, Begins o st u →
      Sink.Reaches st.session.sink st.session.files u.session.sink u.session.files := by
    intro u h
    obtain ⟨-, -, -, hfiles, hsink⟩ := h.keeps
    rw [hfiles, hsink]
    exact .refl
  cases h with
  | full _ => exact .refl
  | unbegun _ _ => exact .refl
  | brokenOff hbegins _ =>
      have hreaches := hbegun hbegins
      exact hreaches
  | waiting hbegins _ => exact hbegun hbegins
  | failed hmakes _ _ => exact hmakes.keeps.2.2

/-- A display that ends well has used up its number of passes, or is to stop.  A
pass that it has begun and not seen through is one that the moment to stop broke
off. -/
theorem Ends.ok {last : Option Pass} (h : Ends p o st last (.ok ()) st') :
    last = none ∧ (st'.session.clock.stopped = false → exhausted o st.stats = true)
      ∧ (st'.stats = st.stats
        ∨ st'.stats = { st.stats with passes := st.stats.passes + 1 } ∧ exhausted o st.stats = false
          ∧ BrokenOff o st) := by
  have hstopped : ∀ {c c' : Clock} {delay}, c.race delay = .stopped c' → c'.stopped ≠ false := by
    intro c c' delay hrace hrunning
    rw [Clock.stopped_of_race_eq_stopped hrace] at hrunning
    cases hrunning
  generalize hr : (.ok () : Outcome Unit) = r at h
  cases h with
  | full hfull => exact ⟨rfl, fun _ => hfull, .inl rfl⟩
  | unbegun _ hrace => exact ⟨rfl, fun hrunning => absurd hrunning (hstopped hrace), .inl rfl⟩
  | brokenOff hbegins hrace =>
      obtain ⟨hopen, hstats, -⟩ := hbegins.keeps
      exact ⟨rfl, fun hrunning => absurd hrunning (hstopped hrace),
        .inr ⟨hstats, hopen, _, _, hbegins, hrace⟩⟩
  | waiting _ _ => cases hr
  | failed _ _ _ => cases hr

/-- The counters of a display that ends well tally with the passes that it made
from its first step on. -/
theorem Ends.tallies {last : Option Pass} (h : Ends p o u last (.ok ()) st')
    (hgoes : Goes p o st ms u) (hst : st.stats = {}) :
    st'.stats.delivered = (ms.filterMap Pass.accepted?).length
      ∧ (st'.stats.delivered + st'.stats.sourceFailures + st'.stats.sinkFailures = st'.stats.passes
        ∨ st'.stats.delivered + st'.stats.sourceFailures + st'.stats.sinkFailures + 1
              = st'.stats.passes
            ∧ BrokenOff o u)
      ∧ (∀ max, o.maxPasses = some max → st'.stats.passes ≤ max)
      ∧ (st'.session.cleanUp.clock.stopped = false → o.maxPasses = some st'.stats.passes) := by
  obtain ⟨hpasses, hdelivered, hsum⟩ := hgoes.stats
  rw [hst] at hpasses hdelivered hsum
  have hdelivered : u.stats.delivered = (ms.filterMap Pass.accepted?).length :=
    hdelivered.trans (Nat.zero_add _)
  have hsum : u.stats.delivered + u.stats.sourceFailures + u.stats.sinkFailures
      = u.stats.passes := by
    rw [Nat.add_assoc, hpasses]
    exact hsum
  have hle : ∀ max, o.maxPasses = some max → u.stats.passes ≤ max := by
    intro max hmax
    refine hgoes.passes_le hmax ?_
    rw [hst]
    exact Nat.zero_le max
  obtain ⟨-, hrunning, hsame | ⟨hbroken, hopen, hcut⟩⟩ := h.ok
  · rw [hsame, Session.clock_cleanUp]
    refine ⟨hdelivered, .inl hsum, hle, fun hclock => ?_⟩
    obtain ⟨max, hmax, hfull⟩ := exhausted_iff.mp (hrunning hclock)
    rw [hmax, Nat.le_antisymm hfull (hle max hmax)]
  · rw [hbroken, Session.clock_cleanUp]
    refine ⟨hdelivered, .inr ⟨congrArg Nat.succ hsum, hcut⟩, fun max hmax => ?_, fun hclock => ?_⟩
    · refine Nat.lt_of_not_le fun hfull => ?_
      rw [exhausted_iff.mpr ⟨max, hmax, hfull⟩] at hopen
      cases hopen
    · rw [hrunning hclock] at hopen
      cases hopen

/-- Only a pass that failed for good ends a display with an error. -/
theorem Ends.error_iff {e : Error} : (∃ last, Ends p o st last (.error (.error e)) st')
    ↔ ∃ m, Makes p o st m st' ∧ m.outcome = .error (.error e) ∧ e.skippable = false := by
  constructor
  · rintro ⟨last, h⟩
    cases h with
    | failed hmakes houtcome hskip => exact ⟨_, hmakes, houtcome, hskip⟩
  · rintro ⟨m, hmakes, houtcome, hskip⟩
    exact ⟨some m, .failed hmakes houtcome hskip⟩

/-! ## A whole run -/

variable {source : Source} {period limit : Nat} {s' : Session σ} {stats : Stats}

theorem run_eq (hfps : 0 < o.fps) (hperiod : Live.period o.fps = .ok period) (limit : Nat)
    (s : Session σ) :
    run limit source p o s = (steps p o limit (begin source o period s)).map finish := by
  rw [run, start, if_neg (Nat.pos_iff_ne_zero.mp hfps), hperiod]
  rfl

theorem finish_eq_ok_iff :
    finish (r, st') = (.ok stats, s')
      ↔ r = .ok () ∧ stats = st'.stats ∧ s' = st'.session.cleanUp := by
  rcases r with (e | _ | _) | ⟨⟩
  all_goals simp [finish, eq_comm]

theorem finish_eq_error_iff {e : Error} :
    finish (r, st') = (.error (.error e), s')
      ↔ r = .error (.error e) ∧ s' = st'.session.cleanUp := by
  rcases r with (e | _ | _) | ⟨⟩
  all_goals simp [finish, eq_comm]

omit [Sink σ] in
/-- The offers of a run are those of its passes, and so are the frames that the
sink took. -/
theorem offers_of_deeds (h : s'.deeds = s.deeds ++ (ms.filterMap Pass.deed? ++ [.cleanedUp])) :
    s'.offers = s.offers ++ ms.filterMap Pass.offer?
      ∧ s'.accepted = s.accepted ++ ms.filterMap Pass.accepted? := by
  have hoffers : (ms.filterMap Pass.deed?).filterMap Event.offer? = ms.filterMap Pass.offer? := by
    simp only [List.filterMap_filterMap, Pass.offer?_deed?]
  have haccepted : (ms.filterMap Pass.deed?).filterMap Event.accepted?
      = ms.filterMap Pass.accepted? := by
    simp only [List.filterMap_filterMap, Pass.accepted?_deed?]
  have hview : ∀ s : Session σ, s.accepted = s.deeds.filterMap Event.accepted? :=
    fun s => s.filterMap_journal fun _ => rfl
  constructor
  · rw [s'.offers_eq, h, List.filterMap_append, List.filterMap_append, ← s.offers_eq, hoffers]
    exact congrArg (s.offers ++ ·) (List.append_nil _)
  · rw [hview, h, List.filterMap_append, List.filterMap_append, ← hview, haccepted]
    exact congrArg (s.accepted ++ ·) (List.append_nil _)

/-- In a live display every pass is counted: it was delivered, or it failed in a
way that the display steps over, or the moment to stop came while the source was
asked.  What the sink took are the frames of the delivered passes, each
rendered, in the order of the passes.  The number of passes is kept, and reached
unless everything was to stop.  The display ends with an error if and only if a
pass meets one that it does not step over, and that pass is the last. -/
theorem run_tallies (source : Source) (p : Pipeline) (o : Options) (s : Session σ) (limit : Nat)
    (hfps : 0 < o.fps) (hperiod : Live.period o.fps = .ok period) :
    (∀ stats s', run limit source p o s = some (.ok stats, s') →
        ∃ ms u, Goes p o (begin source o period s) ms u
          ∧ (∀ m ∈ ms, m.Passable ∧ ∀ encoded result, m.offer? = some (encoded, result) →
              ∃ frame, m.answer = .ok frame ∧ p.render frame = .ok encoded)
          ∧ s'.offers = s.offers ++ ms.filterMap Pass.offer?
          ∧ s'.accepted = s.accepted ++ ms.filterMap Pass.accepted?
          ∧ stats.delivered = (ms.filterMap Pass.accepted?).length
          ∧ (stats.delivered + stats.sourceFailures + stats.sinkFailures = stats.passes
            ∨ stats.delivered + stats.sourceFailures + stats.sinkFailures + 1 = stats.passes
              ∧ BrokenOff o u)
          ∧ (∀ max, o.maxPasses = some max → stats.passes ≤ max)
          ∧ (s'.clock.stopped = false → o.maxPasses = some stats.passes))
      ∧ ∀ e s', run limit source p o s = some (.error (.error e), s') ↔
          ∃ ms u m v, Goes p o (begin source o period s) ms u ∧ ms.length < limit ∧ Makes p o u m v
            ∧ m.outcome = .error (.error e) ∧ e.skippable = false ∧ s' = v.session.cleanUp
            ∧ s'.offers = s.offers ++ (ms ++ [m]).filterMap Pass.offer?
            ∧ s'.accepted = s.accepted ++ (ms ++ [m]).filterMap Pass.accepted? := by
  have hbegin : (begin source o period s).session.deeds = s.deeds := Session.deeds_info s _
  have hworld : ∀ {ms u last r v}, Goes p o (begin source o period s) ms u → Ends p o u last r v →
      v.session.cleanUp.offers = s.offers ++ (ms ++ last.toList).filterMap Pass.offer?
        ∧ v.session.cleanUp.accepted
          = s.accepted ++ (ms ++ last.toList).filterMap Pass.accepted? := by
    intro ms u last r v hgoes hends
    refine offers_of_deeds ?_
    rw [Session.deeds_cleanUp, hends.deeds, hgoes.deeds, hbegin, List.filterMap_append,
      List.append_assoc, List.append_assoc, List.append_assoc]
  rw [run_eq hfps hperiod]
  constructor
  · intro stats s' h
    obtain ⟨⟨r, st'⟩, hsteps, hfinish⟩ := Option.map_eq_some_iff.mp h
    obtain ⟨rfl, rfl, rfl⟩ := finish_eq_ok_iff.mp hfinish
    obtain ⟨ms, u, last, hgoes, hends, -⟩ := steps_eq_some_iff.mp hsteps
    obtain ⟨rfl, -⟩ := hends.ok
    obtain ⟨hoffers, haccepted⟩ := hworld hgoes hends
    rw [Option.toList_none, List.append_nil] at hoffers haccepted
    exact ⟨ms, u, hgoes, fun m hm => ⟨hgoes.passable m hm, hgoes.render m hm⟩, hoffers, haccepted,
      hends.tallies hgoes rfl⟩
  · intro e s'
    rw [Option.map_eq_some_iff]
    constructor
    · rintro ⟨⟨r, v⟩, hsteps, hfinish⟩
      obtain ⟨rfl, rfl⟩ := finish_eq_error_iff.mp hfinish
      obtain ⟨ms, u, last, hgoes, hends, hlength⟩ := steps_eq_some_iff.mp hsteps
      obtain ⟨m, hmakes, houtcome, hskip⟩ := Ends.error_iff.mp ⟨last, hends⟩
      exact ⟨ms, u, m, v, hgoes, hlength, hmakes, houtcome, hskip, rfl,
        hworld hgoes (.failed hmakes houtcome hskip)⟩
    · rintro ⟨ms, u, m, v, hgoes, hlength, hmakes, houtcome, hskip, rfl, -⟩
      exact ⟨(.error (.error e), v),
        steps_eq_some_iff.mpr ⟨ms, u, some m, hgoes, .failed hmakes houtcome hskip, hlength⟩, rfl⟩

/-- A source that fails every second time, and a sink that refuses its second frame. -/
theorem run_tallies_small :
    let source : Source := .script "every second" [⟨1, some (.ok smallPicture)⟩,
      ⟨0, some (report (.sourceUnavailable "every second" "not yet"))⟩]
    let p : Pipeline := { layout := smallLayout, layout_ok := by decide }
    let o : Options := { fps := 10, maxPasses := some 3 }
    let s : Session ScriptedSink :=
      { sink := { failures := [(2, .sinkWriteFailure "script" "busy")] } }
    0 < o.fps ∧ Live.period o.fps = .ok 100000000
      ∧ ∃ s', run 4 source p o s = some (.ok ⟨3, 1, 1, 1⟩, s') ∧ s'.accepted.length = 1 := by
  intro source p o s
  have hperiod : Live.period o.fps = .ok 100000000 := by decide +kernel
  have hstats : (run 4 source p o s).map (fun ended => ended.1.toOption)
      = some (some ⟨3, 1, 1, 1⟩) := by
    decide +kernel
  obtain ⟨hok, -⟩ := run_tallies source p o s 4 (by decide) hperiod
  obtain ⟨⟨r, s'⟩, hrun, hr⟩ := Option.map_eq_some_iff.mp hstats
  obtain rfl : r = .ok ⟨3, 1, 1, 1⟩ := by
    cases r with
    | error f => cases hr
    | ok stats => exact congrArg Except.ok (Option.some.inj hr)
  obtain ⟨ms, u, -, -, -, haccepted, hdelivered, -⟩ := hok _ s' hrun
  refine ⟨by decide, hperiod, s', hrun, ?_⟩
  rw [haccepted, List.length_append, ← hdelivered]
  rfl

end Live

end Scanout
