import Scanout.Proofs.Resizing
import Scanout.Proofs.SessionHistory
import Scanout.Sweep

/-!
# How trying layouts goes

`Tries` relates the layouts that are still to be tried to the attempts that are
made of them, with one rule for each way in which trying ends or goes on.
`Sweep.tryAll` goes by these rules (`Sweep.tryAll_tries`), so whatever holds of
a sweep that tries layouts is proved by induction on `Tries`:

* the attempts are made of the first layouts, in order (`Tries.layouts`), and
  each is numbered in the report (`Tries.report`);
* the sink is offered their frames and nothing else happens (`Tries.deeds`,
  `Tries.reaches`, `Tries.answers`);
* each frame is the one that scaling and encoding yield without a cache
  (`Tries.fresh`), because the cache holds nothing else (`Progress.Sound`).

Only a sink can make it fail (`Tries.error`).  If everything is to stop when it
has ended, it is cancelled, unless the sink refused the frame of the last layout
(`Tries.interrupted`).
-/

namespace Scanout

namespace Sweep

/-! ## Frames without a cache -/

/-- The encoded frame of a layout, scaled anew. -/
def fresh (c : Sweep) (frame : Frame) (l : Layout) : Outcome Encoded := do
  encode (← frame.resize c.filter l.toSize l.fit) l

/-- A picture that was kept is the one that scaling yields. -/
def Progress.Sound (c : Sweep) (frame : Frame) (p : Progress) : Prop :=
  ∀ key f, p.cache.lookup key = some f → frame.resize c.filter key.1 key.2 = .ok f

variable {c : Sweep} {frame : Frame} {l : Layout} {p q : Progress}

theorem Progress.sound_empty : ({} : Progress).Sound c frame := by
  intro key f h
  cases h

theorem Progress.Sound.keep {key : ScaleKey} {f : Frame} (h : p.Sound c frame)
    (hf : frame.resize c.filter key.1 key.2 = .ok f) : (p.keep key f).Sound c frame := by
  intro other g hg
  rw [Progress.keep, List.lookup_cons] at hg
  split at hg
  · rename_i hkey
    cases hg
    rw [eq_of_beq hkey]
    exact hf
  · exact h other g hg

theorem scaled_eq_ok {f : Frame} (hp : p.Sound c frame) (h : c.scaled frame l p = .ok (f, q)) :
    frame.resize c.filter l.toSize l.fit = .ok f ∧ q.Sound c frame
      ∧ ∃ n, q.report = { p.report with resizes := n } := by
  unfold scaled at h
  cases hlookup : p.cache.lookup (l.toSize, l.fit) with
  | some g =>
      rw [hlookup] at h
      cases h
      exact ⟨hp _ _ hlookup, hp, _, rfl⟩
  | none =>
      rw [hlookup] at h
      obtain ⟨g, hg, h⟩ := bind_eq_ok.mp h
      cases h
      exact ⟨hg, hp.keep hg, _, rfl⟩

/-- With or without a cache, the frame of a layout is the same. -/
theorem prepare_eq_ok {e : Encoded} (hp : p.Sound c frame) (h : c.prepare frame l p = .ok (e, q)) :
    c.fresh frame l = .ok e ∧ q.Sound c frame ∧ ∃ n, q.report = { p.report with resizes := n } := by
  obtain ⟨⟨f, q'⟩, hscaled, h⟩ := bind_eq_ok.mp h
  obtain ⟨e', hencode, h⟩ := bind_eq_ok.mp h
  cases h
  obtain ⟨hresize, hq, hreport⟩ := scaled_eq_ok hp hscaled
  exact ⟨bind_eq_ok.mpr ⟨f, hresize, hencode⟩, hq, hreport⟩

/-- A layout that passes the check can be prepared. -/
theorem exists_prepare_eq_ok (hp : p.Sound c frame) (hl : l.check = .ok ()) :
    ∃ e q, c.prepare frame l p = .ok (e, q) := by
  obtain ⟨f, e, hresize, hencode⟩ := frame.resize_encode_eq_ok c.filter hl
  have hscaled : ∃ q, c.scaled frame l p = .ok (f, q) := by
    unfold scaled
    cases hlookup : p.cache.lookup (l.toSize, l.fit) with
    | some g =>
        have hg := hp _ _ hlookup
        rw [hresize] at hg
        cases hg
        exact ⟨p, rfl⟩
    | none => exact ⟨_, bind_eq_ok.mpr ⟨f, hresize, rfl⟩⟩
  obtain ⟨q, hq⟩ := hscaled
  exact ⟨e, q, bind_eq_ok.mpr ⟨(f, q), hq, bind_eq_ok.mpr ⟨e, hencode, rfl⟩⟩⟩

/-! ## Attempts -/

/-- A layout whose frame was offered to the sink. -/
structure Attempt where
  /-- The layout. -/
  layout : Layout
  /-- The frame. -/
  encoded : Encoded
  /-- Whether it was taken. -/
  result : Except Error Unit

namespace Attempt

/-- The attempt as the report has it. -/
def trial (a : Attempt) (index : Nat) : Trial :=
  match a.result with
  | .ok () => { index, layout := a.layout }
  | .error e => { index, layout := a.layout, failure := some e.message }

/-- The attempt as the journal has it. -/
def deed (a : Attempt) : Event := .offered a.encoded a.result

/-- Why a frame did not reach the device, if the sink refused it. -/
def refusal? : Except Error Unit → Option String
  | .ok () => none
  | .error e => some e.message

variable (a : Attempt) (index : Nat)

theorem trial_of_ok {a : Attempt} (h : a.result = .ok ()) (index : Nat) :
    a.trial index = { index, layout := a.layout } := by
  rw [trial, h]

theorem trial_of_error {a : Attempt} {e : Error} (h : a.result = .error e) (index : Nat) :
    a.trial index = { index, layout := a.layout, failure := some e.message } := by
  rw [trial, h]

@[simp] theorem index_trial : (a.trial index).index = index := by
  unfold trial
  split
  · rfl
  · rfl

@[simp] theorem layout_trial : (a.trial index).layout = a.layout := by
  unfold trial
  split
  · rfl
  · rfl

@[simp] theorem verdict_trial : (a.trial index).verdict = .unrated := by
  unfold trial
  split
  · rfl
  · rfl

@[simp] theorem failure_trial : (a.trial index).failure = refusal? a.result := by
  cases h : a.result with
  | ok u => rw [trial_of_ok h, refusal?]
  | error e => rw [trial_of_error h, refusal?]

theorem delivered_trial : (a.trial index).delivered = true ↔ a.result = .ok () := by
  cases h : a.result with
  | ok u => simp [trial_of_ok h, Trial.delivered]
  | error e => simp [trial_of_error h, Trial.delivered]

end Attempt

/-- Attempts as the report has them, the first of them with a given number. -/
def numbered : Nat → List Attempt → List Trial
  | _, [] => []
  | index, a :: as => a.trial index :: numbered (index + 1) as

theorem length_numbered (index : Nat) (as : List Attempt) :
    (numbered index as).length = as.length := by
  induction as generalizing index with
  | nil => rfl
  | cons a as ih => rw [numbered, List.length_cons, List.length_cons, ih]

theorem getElem?_numbered (index : Nat) (as : List Attempt) (k : Nat) :
    (numbered index as)[k]? = as[k]?.map (·.trial (index + k)) := by
  induction as generalizing index k with
  | nil => rfl
  | cons a as ih =>
      cases k with
      | zero => rfl
      | succ k =>
          rw [numbered, List.getElem?_cons_succ, List.getElem?_cons_succ, ih, Nat.add_right_comm,
            Nat.add_assoc]

theorem getLast?_numbered (index : Nat) (as : List Attempt) :
    (numbered index as).getLast? = as.getLast?.map (·.trial (index + (as.length - 1))) := by
  rw [List.getLast?_eq_getElem?, List.getLast?_eq_getElem?, getElem?_numbered, length_numbered]

theorem index_numbered (index : Nat) (as : List Attempt) :
    (numbered index as).map Trial.index = List.range' index as.length := by
  induction as generalizing index with
  | nil => rfl
  | cons a as ih =>
      rw [numbered, List.map_cons, a.index_trial, ih, List.length_cons, List.range'_succ]

theorem layout_numbered (index : Nat) (as : List Attempt) :
    (numbered index as).map Trial.layout = as.map Attempt.layout := by
  induction as generalizing index with
  | nil => rfl
  | cons a as ih => rw [numbered, List.map_cons, List.map_cons, a.layout_trial, ih]

theorem failure_numbered (index : Nat) (as : List Attempt) :
    (numbered index as).map Trial.failure = as.map fun a => Attempt.refusal? a.result := by
  induction as generalizing index with
  | nil => rfl
  | cons a as ih => rw [numbered, List.map_cons, List.map_cons, a.failure_trial, ih]

theorem numbered_mono {as bs : List Attempt} (h : as <+: bs) (index : Nat) :
    numbered index as <+: numbered index bs := by
  obtain ⟨rest, rfl⟩ := h
  induction as generalizing index with
  | nil => exact List.nil_prefix
  | cons a as ih =>
      rw [List.cons_append, numbered, numbered]
      exact List.cons_prefix_cons.mpr ⟨rfl, ih (index + 1)⟩

theorem exists_of_mem_numbered {index : Nat} {as : List Attempt} {t : Trial}
    (h : t ∈ numbered index as) :
    ∃ (k : Nat) (a : Attempt), as[k]? = some a ∧ t = a.trial (index + k) := by
  obtain ⟨k, hk⟩ := List.mem_iff_getElem?.mp h
  rw [getElem?_numbered, Option.map_eq_some_iff] at hk
  obtain ⟨a, ha, ht⟩ := hk
  exact ⟨k, a, ha, ht.symm⟩

/-! ## Trying layouts -/

variable {σ : Type} [Sink σ]

/-- A layout is prepared and its frame offered to the sink. -/
structure Offers (c : Sweep) (frame : Frame) (l : Layout) (index : Nat) (p : Progress)
    (s : Session σ) (a : Attempt) (q : Progress) (t : Session σ) : Prop where
  running : s.clock.stopped = false
  layout : a.layout = l
  prepare : c.prepare frame l p = .ok (a.encoded, q)
  offer : (s.info (tag index ("Testing: " ++ l.text))).offer a.encoded = (a.result, t)

/-- The layouts that are to be tried, the number of the first, the progress and
the session lead to these attempts, this outcome and this session. -/
inductive Tries (c : Sweep) (frame : Frame) : List Layout → Nat → Progress → Session σ →
    List Attempt → Outcome Progress → Session σ → Prop where
  | done {index p s} : Tries c frame [] index p s [] (.ok p) s
  | stopped {l ls index p s} :
      s.clock.stopped = true → Tries c frame (l :: ls) index p s [] (.ok p.cancel) s
  | unready {l ls index p s f} : s.clock.stopped = false → c.prepare frame l p = .error f →
      Tries c frame (l :: ls) index p s [] (.error f) (s.info (tag index ("Testing: " ++ l.text)))
  | fatal {l ls index p s a q t e} :
      Offers c frame l index p s a q t → a.result = .error e → e.skippable = false →
      Tries c frame (l :: ls) index p s [a] (.error (.error e)) t
  | refused {l ls index p s a q t e as o s'} :
      Offers c frame l index p s a q t → a.result = .error e → e.skippable = true →
      Tries c frame ls (index + 1) (q.add (a.trial index))
        (t.warn (tag index ("Trial failed, continuing: " ++ e.message))) as o s' →
      Tries c frame (l :: ls) index p s (a :: as) o s'
  | cut {l ls index p s a q t clock} : Offers c frame l index p s a q t → a.result = .ok () →
      t.clock.race (some c.dwell) = .stopped clock →
      Tries c frame (l :: ls) index p s [a] (.ok (q.add (a.trial index)).cancel)
        { t.info (tag index "Observe the projector") with clock }
  | watched {l ls index p s a q t clock as o s'} :
      Offers c frame l index p s a q t → a.result = .ok () →
      t.clock.race (some c.dwell) = .reached clock →
      Tries c frame ls (index + 1) (q.add (a.trial index))
        { t.info (tag index "Observe the projector") with clock } as o s' →
      Tries c frame (l :: ls) index p s (a :: as) o s'

/-- Layouts are tried by the rules. -/
theorem tryAll_tries (c : Sweep) (frame : Frame) (ls : List Layout) (index : Nat) (p : Progress)
    (s : Session σ) :
    ∃ as, Tries c frame ls index p s as (c.tryAll frame ls index p s).1
      (c.tryAll frame ls index p s).2 := by
  induction ls generalizing index p s with
  | nil => exact ⟨[], .done⟩
  | cons l ls ih =>
      rw [tryAll]
      cases hstop : s.clock.stopped with
      | true => exact ⟨[], .stopped hstop⟩
      | false =>
          rw [if_neg Bool.false_ne_true]
          dsimp only
          cases hprepare : c.prepare frame l p with
          | error f => exact ⟨[], .unready hstop hprepare⟩
          | ok prepared =>
              obtain ⟨encoded, q⟩ := prepared
              dsimp only
              cases hoffer : (s.info (tag index ("Testing: " ++ l.text))).offer encoded with
              | mk result t =>
                  have hof : Offers c frame l index p s ⟨l, encoded, result⟩ q t :=
                    ⟨hstop, rfl, hprepare, hoffer⟩
                  cases result with
                  | error e =>
                      dsimp only
                      cases hskip : e.skippable with
                      | false => exact ⟨_, .fatal hof rfl hskip⟩
                      | true =>
                          obtain ⟨as, has⟩ := ih (index + 1) _ _
                          exact ⟨_, .refused hof rfl hskip has⟩
                  | ok u =>
                      dsimp only
                      have hclock : t.clock = (t.info (tag index "Observe the projector")).clock :=
                        rfl
                      cases hrace : t.clock.race (some c.dwell) with
                      | stalled => exact absurd hrace (t.clock.race_ne_stalled c.dwell)
                      | stopped clock =>
                          rw [← hclock, hrace]
                          exact ⟨_, .cut hof rfl hrace⟩
                      | reached clock =>
                          rw [← hclock, hrace]
                          obtain ⟨as, has⟩ := ih (index + 1) _ _
                          exact ⟨_, .watched hof rfl hrace has⟩

/-- A frame stayed until the moment to stop came, and the stop was not noticed:
the session lost a tie on the way from one to the other. -/
def Outruns (c : Sweep) (s t : Session σ) : Prop :=
  (c.dwell = 0 ∨ t.clock.stopAt = some t.clock.now) ∧ s.clock.ties = .wait :: t.clock.ties

omit [Sink σ] in
theorem outruns_congr {s t u : Session σ} (h : t.clock.ties = s.clock.ties) :
    c.Outruns t u ↔ c.Outruns s u := by
  rw [Outruns, Outruns, h]

/-! ## What one offer does -/

section Offers

variable {index : Nat} {s t : Session σ} {a : Attempt}

theorem Offers.deeds (h : Offers c frame l index p s a q t) : t.deeds = s.deeds ++ [a.deed] := by
  have hdeeds := (s.info (tag index ("Testing: " ++ l.text))).deeds_offer a.encoded
  rw [h.offer, Session.deeds_info] at hdeeds
  exact hdeeds

theorem Offers.answers (h : Offers c frame l index p s a q t) : t.answers = s.answers := by
  have ht := congrArg Prod.snd h.offer
  subst ht
  rfl

theorem Offers.reaches (h : Offers c frame l index p s a q t) :
    Sink.Reaches s.sink s.files t.sink t.files := by
  have ht := congrArg Prod.snd h.offer
  subst ht
  exact .deliver a.encoded .refl

/-- No tie comes up while the sink takes a frame. -/
theorem Offers.ties (h : Offers c frame l index p s a q t) : t.clock.ties = s.clock.ties := by
  have ht := congrArg Prod.snd h.offer
  subst ht
  rw [Session.offer]
  dsimp only
  split
  · rfl
  · rfl

theorem Offers.fresh (h : Offers c frame l index p s a q t) (hp : p.Sound c frame) :
    c.fresh frame a.layout = .ok a.encoded ∧ (q.add (a.trial index)).Sound c frame := by
  obtain ⟨hfresh, hq, -⟩ := prepare_eq_ok hp h.prepare
  rw [h.layout]
  exact ⟨hfresh, hq⟩

theorem Offers.report (h : Offers c frame l index p s a q t) (hp : p.Sound c frame) :
    ∃ n, (q.add (a.trial index)).report
      = { p.report with trials := p.report.trials ++ [a.trial index], resizes := n } := by
  obtain ⟨-, -, n, hreport⟩ := prepare_eq_ok hp h.prepare
  refine ⟨n, ?_⟩
  rw [Progress.add, hreport]

end Offers

/-! ## What trying layouts does -/

/-- Nothing was chosen, saved or judged. -/
structure Report.Unchosen (r : Report) : Prop where
  winner : r.winner = none
  unwritten : r.storeWritten = false
  unrated : ∀ t ∈ r.trials, t.verdict = .unrated

namespace Tries

variable {ls : List Layout} {index : Nat} {s s' : Session σ} {as : List Attempt}
  {o : Outcome Progress}

/-- The attempts are made of the first layouts. -/
theorem layouts (h : Tries c frame ls index p s as o s') : as.map Attempt.layout <+: ls := by
  induction h with
  | done => exact List.nil_prefix
  | stopped _ => exact List.nil_prefix
  | unready _ _ => exact List.nil_prefix
  | fatal hof _ _ =>
      rw [List.map_cons, List.map_nil, hof.layout]
      exact List.cons_prefix_cons.mpr ⟨rfl, List.nil_prefix⟩
  | refused hof _ _ _ ih =>
      rw [List.map_cons, hof.layout]
      exact List.cons_prefix_cons.mpr ⟨rfl, ih⟩
  | cut hof _ _ =>
      rw [List.map_cons, List.map_nil, hof.layout]
      exact List.cons_prefix_cons.mpr ⟨rfl, List.nil_prefix⟩
  | watched hof _ _ _ ih =>
      rw [List.map_cons, hof.layout]
      exact List.cons_prefix_cons.mpr ⟨rfl, ih⟩

/-- Offers, and nothing else, are what trying layouts does to the world. -/
theorem deeds (h : Tries c frame ls index p s as o s') :
    s'.deeds = s.deeds ++ as.map Attempt.deed := by
  induction h with
  | done => exact (List.append_nil _).symm
  | stopped _ => exact (List.append_nil _).symm
  | unready _ _ => rw [Session.deeds_info, List.map_nil, List.append_nil]
  | fatal hof _ _ => exact hof.deeds
  | refused hof _ _ _ ih =>
      rw [ih, Session.deeds_warn, hof.deeds, List.append_assoc, List.map_cons,
        List.singleton_append]
  | cut hof _ _ => exact (Session.deeds_info _ _).trans hof.deeds
  | watched hof _ _ _ ih =>
      rw [ih, List.map_cons, ← List.singleton_append, ← List.append_assoc, ← hof.deeds]
      exact congrArg (· ++ _) (Session.deeds_info _ _)

theorem offers (h : Tries c frame ls index p s as o s') :
    s'.offers = s.offers ++ as.map fun a => (a.encoded, a.result) := by
  rw [s'.offers_eq, h.deeds, List.filterMap_append, ← s.offers_eq, List.filterMap_map,
    ← List.filterMap_eq_map]
  rfl

theorem answers (h : Tries c frame ls index p s as o s') : s'.answers = s.answers := by
  induction h with
  | done => rfl
  | stopped _ => rfl
  | unready _ _ => rfl
  | fatal hof _ _ => exact hof.answers
  | refused hof _ _ _ ih => exact ih.trans hof.answers
  | cut hof _ _ => exact hof.answers
  | watched hof _ _ _ ih => exact ih.trans hof.answers

theorem reaches (h : Tries c frame ls index p s as o s') :
    Sink.Reaches s.sink s.files s'.sink s'.files := by
  induction h with
  | done => exact .refl
  | stopped _ => exact .refl
  | unready _ _ => exact .refl
  | fatal hof _ _ => exact hof.reaches
  | refused hof _ _ _ ih => exact hof.reaches.trans ih
  | cut hof _ _ => exact hof.reaches
  | watched hof _ _ _ ih => exact hof.reaches.trans ih

/-- The sink is offered what scaling and encoding yield without a cache. -/
theorem fresh (h : Tries c frame ls index p s as o s') (hp : p.Sound c frame) :
    ∀ a ∈ as, c.fresh frame a.layout = .ok a.encoded := by
  induction h with
  | done => exact fun a ha => nomatch ha
  | stopped _ => exact fun a ha => nomatch ha
  | unready _ _ => exact fun a ha => nomatch ha
  | fatal hof _ _ =>
      intro a ha
      rw [List.mem_singleton.mp ha]
      exact (hof.fresh hp).1
  | refused hof _ _ _ ih =>
      obtain ⟨hhead, hsound⟩ := hof.fresh hp
      exact List.forall_mem_cons.mpr ⟨hhead, ih hsound⟩
  | cut hof _ _ =>
      intro a ha
      rw [List.mem_singleton.mp ha]
      exact (hof.fresh hp).1
  | watched hof _ _ _ ih =>
      obtain ⟨hhead, hsound⟩ := hof.fresh hp
      exact List.forall_mem_cons.mpr ⟨hhead, ih hsound⟩

/-- Trying layouts adds its attempts to the report and chooses nothing. -/
theorem report (h : Tries c frame ls index p s as (.ok q) s') (hp : p.Sound c frame) :
    ∃ n b, q.report =
      { p.report with
        trials := p.report.trials ++ numbered index as, resizes := n, cancelled := b } := by
  generalize ho : (Except.ok q : Outcome Progress) = o at h
  induction h with
  | done =>
      cases ho
      exact ⟨_, _, by rw [numbered, List.append_nil]⟩
  | stopped _ =>
      cases ho
      exact ⟨_, true, by rw [Progress.cancel, numbered, List.append_nil]⟩
  | unready _ _ => cases ho
  | fatal _ _ _ => cases ho
  | refused hof _ _ _ ih =>
      obtain ⟨n, hhead⟩ := hof.report hp
      obtain ⟨m, b, hrest⟩ := ih (hof.fresh hp).2 ho
      refine ⟨m, b, ?_⟩
      rw [hrest, hhead, numbered, List.append_assoc, List.singleton_append]
  | cut hof _ _ =>
      cases ho
      obtain ⟨n, hhead⟩ := hof.report hp
      exact ⟨n, true, by rw [Progress.cancel, hhead]; rfl⟩
  | watched hof _ _ _ ih =>
      obtain ⟨n, hhead⟩ := hof.report hp
      obtain ⟨m, b, hrest⟩ := ih (hof.fresh hp).2 ho
      refine ⟨m, b, ?_⟩
      rw [hrest, hhead, numbered, List.append_assoc, List.singleton_append]

/-- The trials of the report are the attempts, from the first. -/
theorem trials {ls : List Layout} (h : Tries c frame ls 1 {} s as (.ok q) s') :
    q.report.trials = numbered 1 as := by
  obtain ⟨n, b, hreport⟩ := h.report Progress.sound_empty
  rw [hreport]
  rfl

/-- When layouts were tried, nothing is chosen yet. -/
theorem unchosen {ls : List Layout} (h : Tries c frame ls 1 {} s as (.ok q) s') :
    q.report.Unchosen := by
  obtain ⟨n, b, hreport⟩ := h.report Progress.sound_empty
  rw [hreport]
  refine ⟨rfl, rfl, ?_⟩
  intro t ht
  obtain ⟨k, a, -, rfl⟩ := exists_of_mem_numbered ht
  exact a.verdict_trial (1 + k)

/-- Layouts that pass the check are tried until the sink refuses one for good. -/
theorem error {f : Failure} (h : Tries c frame ls index p s as (.error f) s') (hp : p.Sound c frame)
    (hls : ∀ l ∈ ls, l.check = .ok ()) :
    ∃ a e, as.getLast? = some a ∧ a.result = .error e ∧ e.skippable = false ∧ f = .error e := by
  generalize ho : (Except.error f : Outcome Progress) = o at h
  induction h with
  | done => cases ho
  | stopped _ => cases ho
  | unready _ hprepare =>
      obtain ⟨e, q, hok⟩ := exists_prepare_eq_ok hp (hls _ List.mem_cons_self)
      rw [hok] at hprepare
      cases hprepare
  | fatal _ hresult hskip =>
      cases ho
      exact ⟨_, _, rfl, hresult, hskip, rfl⟩
  | refused hof _ _ _ ih =>
      obtain ⟨a, e, hlast, hrest⟩ := ih (hof.fresh hp).2 (List.forall_mem_cons.mp hls).2 ho
      exact ⟨a, e, by rw [List.getLast?_cons, hlast]; rfl, hrest⟩
  | cut _ _ _ => cases ho
  | watched hof _ _ _ ih =>
      obtain ⟨a, e, hlast, hrest⟩ := ih (hof.fresh hp).2 (List.forall_mem_cons.mp hls).2 ho
      exact ⟨a, e, by rw [List.getLast?_cons, hlast]; rfl, hrest⟩

/-- Nothing is tried once everything is to stop. -/
theorem nil_of_stopped (h : Tries c frame ls index p s as o s') (hstop : s.clock.stopped = true) :
    as = [] := by
  cases h with
  | done => rfl
  | stopped _ => rfl
  | unready _ _ => rfl
  | fatal hof _ _ => exact absurd hstop (by rw [hof.running]; exact Bool.false_ne_true)
  | refused hof _ _ _ => exact absurd hstop (by rw [hof.running]; exact Bool.false_ne_true)
  | cut hof _ _ => exact absurd hstop (by rw [hof.running]; exact Bool.false_ne_true)
  | watched hof _ _ _ => exact absurd hstop (by rw [hof.running]; exact Bool.false_ne_true)

/-- If everything is to stop when trying layouts has ended, it was cancelled,
unless all were tried and the sink refused the last or its frame outran the
stop. -/
theorem interrupted (h : Tries c frame ls index p s as (.ok q) s') (hp : p.Sound c frame)
    (hstart : p.report.cancelled = false) (hstop : s'.clock.stopped = true) :
    q.report.cancelled = false
      ↔ as.length = ls.length ∧ ((∀ a ∈ as.getLast?, a.result ≠ .ok ()) ∨ c.Outruns s s') := by
  generalize ho : (Except.ok q : Outcome Progress) = o at h
  induction h with
  | done =>
      cases ho
      exact ⟨fun _ => ⟨rfl, .inl fun a ha => nomatch ha⟩, fun _ => hstart⟩
  | stopped _ =>
      cases ho
      exact ⟨fun h => (nomatch h), fun h => (nomatch h.1)⟩
  | unready _ _ => cases ho
  | fatal _ _ _ => cases ho
  | @refused _ _ _ _ _ a _ _ _ as _ _ hof hresult _ _ ih =>
      obtain ⟨n, hreport⟩ := hof.report hp
      have hlast : (∀ b ∈ as.getLast?, b.result ≠ .ok ())
          ↔ ∀ b ∈ (a :: as).getLast?, b.result ≠ .ok () := by
        cases as with
        | nil => simp [hresult]
        | cons b bs => rw [List.getLast?_cons_cons]
      exact (ih (hof.fresh hp).2 (by rw [hreport]; exact hstart) hstop ho).trans
        (and_congr Nat.add_right_cancel_iff.symm (or_congr hlast (outruns_congr hof.ties)))
  | cut hof hresult hrace =>
      cases ho
      refine ⟨fun h => (nomatch h), fun h => ?_⟩
      rcases h.2 with hrefused | houtruns
      · exact absurd hresult (hrefused _ rfl)
      · exact absurd (hof.ties.trans houtruns.2) (Clock.ties_ne_of_race_eq_stopped hrace)
  | @watched _ ls _ _ _ a _ _ _ as _ _ hof hresult hrace hrest ih =>
      obtain ⟨n, hreport⟩ := hof.report hp
      have hstart := (congrArg Report.cancelled hreport).trans hstart
      rcases Clock.race_eq_reached_iff.mp hrace with ⟨hrunning, rfl⟩ | ⟨htied, rest, hties, rfl⟩
      · -- The moment to stop had not come, so this frame was not the last.
        have hlast : (∀ b ∈ as.getLast?, b.result ≠ .ok ())
            ↔ ∀ b ∈ (a :: as).getLast?, b.result ≠ .ok () := by
          cases hrest with
          | done => exact absurd hstop (by rw [hrunning]; exact Bool.false_ne_true)
          | stopped hstopped => exact absurd hstopped (by rw [hrunning]; exact Bool.false_ne_true)
          | unready _ _ => cases ho
          | fatal _ _ _ => cases ho
          | refused _ _ _ _ => rw [List.getLast?_cons_cons]
          | cut _ _ _ => rw [List.getLast?_cons_cons]
          | watched _ _ _ _ => rw [List.getLast?_cons_cons]
        exact (ih (hof.fresh hp).2 hstart hstop ho).trans
          (and_congr Nat.add_right_cancel_iff.symm (or_congr hlast (outruns_congr hof.ties)))
      · -- The stop was overlooked, so nothing is tried after this frame.
        obtain rfl := hrest.nil_of_stopped htied.stopped_advance
        rw [ih (hof.fresh hp).2 hstart hstop ho]
        cases hrest with
        | done =>
            exact iff_of_true ⟨rfl, .inl fun b hb => nomatch hb⟩
              ⟨rfl, .inr ⟨htied.eq_zero_or, hof.ties.symm.trans hties⟩⟩
        | stopped _ => simp
        | unready _ _ => cases ho

end Tries

end Sweep

end Scanout
