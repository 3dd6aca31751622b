import Scanout.Candidates
import Scanout.Pipeline
import Scanout.Session
import Scanout.Store

/-!
# Calibration sweeps

A `Sweep` finds the layout of a device by trying many.  It offers the same
picture in one layout after the other and lets each stay for a while.  Then the
sink cleans up, and one of the trials whose frame was taken is chosen, by the
operator or by padding, and saved.

A layout whose frame the sink refuses is a failed trial, and the sweep goes on,
unless the refusal is one that a loop does not step over.  If everything is to
stop, the sweep is cancelled: nothing is chosen and nothing is saved.

The picture is scaled once for every canvas and fit, however many strides and
orders are tried (`Sweep.scaled`).
-/

namespace Scanout

/-! ## Setting up a sweep -/

/-- Who chooses among the trials. -/
inductive Selection where
  /-- The operator, by number. -/
  | interactive
  /-- Nobody: the trial with the least padding. -/
  | unattended
deriving DecidableEq, Repr, Inhabited

def Selection.title : Selection → String
  | interactive => "Interactive"
  | unattended => "Unattended"

/-- A sweep that is ready to run. -/
structure Sweep where
  /-- The layouts to try, in order. -/
  plan : List Layout
  /-- How long each stays, in milliseconds. -/
  dwell : Nat := 3000
  /-- Nanoseconds by which that is more than was asked for. -/
  excess : Nat := 0
  /-- Who chooses. -/
  selection : Selection := .interactive
  /-- Where the choice is saved. -/
  store : Option Store := none
  /-- How pixels are resampled. -/
  filter : Resampler := .lanczos3

namespace Sweep

/-- The layouts of a candidate space, followed by single layouts.  Single
layouts that fail the check are dropped, and a plan must not be empty. -/
def planOf (candidates : Option Candidates) (layouts : List Layout) : Outcome (List Layout) := do
  let listed ← match candidates with
    | some c => c.enumerate
    | none => .ok []
  match listed ++ layouts.filter Layout.valid with
  | [] => report (.config "candidates" "the sweep has no valid configuration to try")
  | plan => return plan

/-! ## Reports -/

/-- What a sweep found out. -/
structure Report where
  trials : List Trial := []
  /-- How often the picture was scaled. -/
  resizes : Nat := 0
  /-- The trial of choice. -/
  winner : Option Trial := none
  /-- The choice was saved. -/
  storeWritten : Bool := false
  /-- Everything was to stop before a choice was made. -/
  cancelled : Bool := false
deriving DecidableEq, Repr

namespace Report

/-- The number of trials whose frame was taken. -/
def delivered (r : Report) : Nat := r.trials.countP Trial.delivered

/-- The number of trials whose frame was refused. -/
def failed (r : Report) : Nat := r.trials.length - r.delivered

end Report

/-! ## Trying layouts -/

/-- What a scaled picture depends on, given the picture. -/
abbrev ScaleKey := Size × Fit

/-- Pictures scaled so far. -/
abbrev Cache := List (ScaleKey × Frame)

/-- A sweep under way. -/
structure Progress where
  /-- The report so far. -/
  report : Report := {}
  /-- Pictures scaled so far. -/
  cache : Cache := []

/-- The progress after a picture was scaled. -/
def Progress.keep (p : Progress) (key : ScaleKey) (f : Frame) : Progress :=
  { report := { p.report with resizes := p.report.resizes + 1 }, cache := (key, f) :: p.cache }

/-- The progress after a trial. -/
def Progress.add (p : Progress) (t : Trial) : Progress :=
  { p with report := { p.report with trials := p.report.trials ++ [t] } }

/-- The progress when everything is to stop. -/
def Progress.cancel (p : Progress) : Progress :=
  { p with report := { p.report with cancelled := true } }

/-- The picture scaled for a layout: from the cache, or scaled now and kept. -/
def scaled (c : Sweep) (frame : Frame) (l : Layout) (p : Progress) : Outcome (Frame × Progress) :=
  match p.cache.lookup (l.toSize, l.fit) with
  | some f => .ok (f, p)
  | none => do
      let f ← frame.resize c.filter l.toSize l.fit
      return (f, p.keep (l.toSize, l.fit) f)

/-- The encoded frame of a layout. -/
def prepare (c : Sweep) (frame : Frame) (l : Layout) (p : Progress) :
    Outcome (Encoded × Progress) := do
  let (f, p) ← c.scaled frame l p
  return (← encode f l, p)

/-- A number in brackets, which starts many lines of the log. -/
def tag (index : Nat) (text : String) : String := "[" ++ toString index ++ "] " ++ text

variable {σ : Type} [Sink σ]

/-- Try layouts, the first of them with a given number. -/
def tryAll (c : Sweep) (frame : Frame) :
    List Layout → (index : Nat) → Progress → Session σ → Outcome Progress × Session σ
  | [], _, p, s => (.ok p, s)
  | l :: ls, index, p, s =>
      if s.clock.stopped then (.ok p.cancel, s)
      else
        let s := s.info (tag index ("Testing: " ++ l.text))
        match c.prepare frame l p with
        | .error e => (.error e, s)
        | .ok (encoded, p) =>
            match s.offer encoded with
            | (.error e, s) =>
                if e.skippable then
                  tryAll c frame ls (index + 1)
                    (p.add { index, layout := l, failure := some e.message })
                    (s.warn (tag index ("Trial failed, continuing: " ++ e.message)))
                else (.error (.error e), s)
            | (.ok (), s) =>
                let p := p.add { index, layout := l }
                let s := s.info (tag index "Observe the projector")
                match s.clock.race (some c.dwell) with
                | .reached clock => tryAll c frame ls (index + 1) p { s with clock }
                | .stopped clock => (.ok p.cancel, { s with clock })
                | .stalled => (.error .stalled, s)

/-! ## Choosing a trial -/

/-- How many questions the operator is asked. -/
def maxQuestions : Nat := 3

def question : String := "Enter choice number:"

/-- How the operator's choice ends. -/
inductive Choice where
  /-- With the number of a trial. -/
  | picked (index : Nat)
  /-- Without one. -/
  | gaveUp
  /-- Everything was to stop. -/
  | interrupted
deriving DecidableEq, Repr

/-- The number of a delivered trial that an answer names. -/
def named? (trials : List Trial) (answer : String) : Option Nat :=
  match Text.readNumeral wordLimit (Text.trim answer.toList) with
  | some index => if (Trial.selectByIndex trials index).isSome then some index else none
  | none => none

/-- What the log says about an answer that names no delivered trial. -/
def misnamed (answer : String) (attempt : Nat) : String :=
  "'" ++ String.ofList (Text.trim answer.toList) ++ "' is not a delivered trial number (attempt "
    ++ toString attempt ++ "/" ++ toString maxQuestions ++ ")"

/-- Ask the operator for a trial, some questions more.  If everything is to stop
by then, that may be noticed before the question is put.  An answer that comes
at all comes at once. -/
def choose (trials : List Trial) : (left : Nat) → Session σ → Outcome Choice × Session σ
  | 0, s => (.ok .gaveUp, s)
  | left + 1, s =>
      match s.clock.race (some 0) with
      | .stalled => (.error .stalled, s)
      | .stopped clock => (.ok .interrupted, { s with clock })
      | .reached clock =>
          let s := ({ s with clock } : Session σ).record (.asked question)
          match s.answers with
          | [] => (.ok .gaveUp, s.warn "Operator input closed")
          | .silence :: rest =>
              match s.clock.race none with
              | .stopped clock => (.ok .interrupted, { s with clock, answers := rest })
              | _ => (.error .stalled, s)
          | .failure e :: rest => (.error (.error e), { s with answers := rest })
          | .line answer :: rest =>
              match named? trials answer with
              | some index => (.ok (.picked index), { s with answers := rest })
              | none =>
                  choose trials left
                    (({ s with answers := rest } : Session σ).warn
                      (misnamed answer (maxQuestions - left)))

/-- What becomes of a trial when another, or itself, is chosen. -/
def verdict (c : Sweep) (winner : Nat) (t : Trial) : Verdict :=
  if t.index = winner then .accepted
  else if c.selection = .interactive ∧ t.delivered then .rejected
  else .unrated

/-- The report with the verdicts on its trials. -/
def judge (c : Sweep) (winner : Nat) (r : Report) : Report :=
  { r with trials := r.trials.map fun t => { t with verdict := c.verdict winner t } }

/-- Save the chosen trial. -/
def conclude (c : Sweep) (winner : Nat) (r : Report) (s : Session σ) : Outcome Report × Session σ :=
  let r := c.judge winner r
  match r.trials.find? fun t => t.index == winner with
  | none => (.ok r, s)
  | some t =>
      let s := s.info ("Selected " ++ tag t.index t.layout.text)
      match c.store with
      | none => (.ok { r with winner := some t }, s)
      | some store =>
          let saved := store.save s.files t.layout
          match saved.result with
          | .error e => (.error (.error e), { s with files := saved.files })
          | .ok () =>
              let s := ({ s with files := saved.files } : Session σ).record (.saved t.layout)
              (.ok { r with winner := some t, storeWritten := true },
                s.note (store.saveNote t.layout))

/-- Choose among the trials of a finished sweep and save the choice. -/
def finalize (c : Sweep) (r : Report) (s : Session σ) : Outcome Report × Session σ :=
  let unchosen (s : Session σ) : Outcome Report × Session σ :=
    (.ok r, s.warn "No configuration chosen; nothing saved")
  if r.delivered = 0 then (.ok r, s.warn "No trial reached the projector; nothing to choose from")
  else
    match c.selection with
    | .unattended =>
        match Trial.selectByPadding r.trials with
        | some t => c.conclude t.index r s
        | none => unchosen s
    | .interactive =>
        match choose r.trials maxQuestions
            (s.record (.presented (r.trials.filter Trial.delivered))) with
        | (.error e, s) => (.error e, s)
        | (.ok (.picked index), s) => c.conclude index r s
        | (.ok .gaveUp, s) => unchosen s
        | (.ok .interrupted, s) =>
            (.ok { r with cancelled := true },
              s.info "Selection interrupted; configuration not saved")

/-! ## Running a sweep -/

/-- What the log says when trying layouts has ended. -/
def Report.summary (r : Report) : String :=
  if r.cancelled then
    "Sweep interrupted after " ++ toString r.trials.length ++ " trials; configuration not saved"
  else
    "Sweep finished: " ++ toString r.delivered ++ " delivered, " ++ toString r.failed ++ " failed, "
      ++ toString r.resizes ++ " resizes"

/-- What the log says when a run begins. -/
def opening (c : Sweep) (s : Session σ) : String :=
  "Calibration sweep: " ++ toString c.plan.length ++ " configurations, dwell "
    ++ spanText (c.dwell * nanosPerMilli - c.excess) ++ ", " ++ c.selection.title
    ++ " selection, sink " ++ Sink.name s.sink

/-- Try every layout of the plan with a picture, clean up, choose a trial and
save it. -/
def run (c : Sweep) (frame : Frame) (s : Session σ) : Outcome Report × Session σ :=
  let s := s.info (c.opening s)
  match c.tryAll frame c.plan 1 {} s with
  | (.error (.error e), s) => (.error (.error e), s.cleanUp)
  | (.error e, s) => (.error e, s)
  | (.ok p, s) =>
      let s := s.cleanUp.info p.report.summary
      if p.report.cancelled then (.ok p.report, s) else c.finalize p.report s

end Sweep

end Scanout
