import Scanout.Number.Double
import Scanout.Pipeline
import Scanout.Session
import Scanout.Source.Basic

/-!
# Showing pictures

`show` puts one picture on the device and leaves it there until everything is to
stop.

A `Live` display keeps asking a source for frames, at a steady rate.  Each pass
waits for the next tick, asks for a frame, renders it and offers it to the sink.
Passes whose source or sink fails in a way that a loop steps over are counted,
and any other error ends the display.  It also ends after a given number of
passes, or when everything is to stop.

Both let the sink clean up at the end, also after an error.
-/

namespace Scanout

variable {σ : Type} [Sink σ]

/-! ## One picture -/

/-- What the log says about a picture before it is shown. -/
def introduction (source : Source) (f : Frame) (l : Layout) : String :=
  "Source " ++ source.name ++ " is " ++ f.size.text ++ "; layout " ++ l.text

/-- Ask for one frame, render it and offer it to the sink. -/
def showOnce (source : Source) (p : Pipeline) (s : Session σ) : Outcome Unit × Session σ :=
  let a := source.acquire s.currentFiles
  match a.result with
  | none => (.error .stalled, s)
  | some result =>
      let s := ({ s with clock := s.clock.advance a.delay } : Session σ).notes a.notes
      match result with
      | .error e => (.error e, s)
      | .ok f =>
          let s := s.info (introduction source f p.layout)
          match p.render f with
          | .error e => (.error e, s)
          | .ok encoded =>
              match s.offer encoded with
              | (.error e, s) => (.error (.error e), s)
              | (.ok (), s) => (.ok (), s)

/-- Show one picture until everything is to stop. -/
def Source.show (source : Source) (p : Pipeline) (s : Session σ) : Outcome Unit × Session σ :=
  match showOnce source p s with
  | (.error (.error e), s) => (.error (.error e), s.cleanUp)
  | (.error e, s) => (.error e, s)
  | (.ok (), s) =>
      let s := s.info ("Displaying on " ++ Sink.name s.sink ++ "; press Ctrl+C to stop")
      match s.clock.race none with
      | .reached clock => (.ok (), ({ s with clock } : Session σ).cleanUp)
      | .stopped clock => (.ok (), ({ s with clock } : Session σ).cleanUp)
      | .stalled => (.error .stalled, s)

/-! ## Live displays -/

namespace Live

/-- The rate of a live display and the number of passes after which it ends. -/
structure Options where
  /-- Passes per second. -/
  fps : Nat := 5
  /-- The number of passes, if it is limited. -/
  maxPasses : Option Nat := none
deriving DecidableEq, Repr

/-- What a live display has done. -/
structure Stats where
  /-- Passes that were begun. -/
  passes : Nat := 0
  /-- Frames that the sink took. -/
  delivered : Nat := 0
  /-- Passes without a frame. -/
  sourceFailures : Nat := 0
  /-- Frames that the sink refused. -/
  sinkFailures : Nat := 0
deriving DecidableEq, Repr

/-- A live display under way. -/
structure State (σ : Type) where
  /-- Where its frames come from. -/
  source : Source
  /-- Its rhythm. -/
  ticker : Ticker
  /-- What it has done. -/
  stats : Stats := {}
  /-- All outside it. -/
  session : Session σ

/-- What a step comes to. -/
inductive Step (σ : Type) where
  /-- The display goes on. -/
  | next (state : State σ)
  /-- The display ends. -/
  | done (result : Outcome Unit) (state : State σ)

/-- Nanoseconds of a second. -/
def nanosPerSecond : Nat := 1000000000

/-- The time between two passes in nanoseconds: one second divided by the rate
in double precision, and rounded.  Ticks that follow one another at once are a
fault. -/
def period (fps : Nat) : Outcome Nat :=
  match (Number.roundHalfEven (Number.quotient 1 fps * nanosPerSecond)).toNat with
  | 0 => fault
  | n => .ok n

/-- The number of passes is used up. -/
def exhausted (o : Options) (stats : Stats) : Bool :=
  match o.maxPasses with
  | some n => n ≤ stats.passes
  | none => false

/-- The result of the pass at hand, written into the display. -/
def settle (st : State σ) : Outcome Unit → Step σ
  | .ok () => .next { st with stats := { st.stats with delivered := st.stats.delivered + 1 } }
  | .error (.error (.sourceUnavailable origin reason)) =>
      .next { st with
        stats := { st.stats with sourceFailures := st.stats.sourceFailures + 1 }
        session := st.session.warn ("Frame " ++ toString st.stats.passes ++ " skipped: "
          ++ (Error.sourceUnavailable origin reason).message) }
  | .error (.error (.sinkWriteFailure target reason)) =>
      .next { st with
        stats := { st.stats with sinkFailures := st.stats.sinkFailures + 1 }
        session := st.session.warn ("Frame " ++ toString st.stats.passes ++ " not written: "
          ++ (Error.sinkWriteFailure target reason).message) }
  | .error e => .done (.error e) st

/-- Render a frame and offer it to the sink. -/
def deliver (p : Pipeline) (s : Session σ) : Outcome Frame → Outcome Unit × Session σ
  | .error e => (.error e, s)
  | .ok f =>
      match p.render f with
      | .error e => (.error e, s)
      | .ok encoded =>
          match s.offer encoded with
          | (.error e, s) => (.error (.error e), s)
          | (.ok (), s) => (.ok (), s)

/-- Begin a pass: ask for a frame and see it through. -/
def pass (p : Pipeline) (st : State σ) : Step σ :=
  let st := { st with stats := { st.stats with passes := st.stats.passes + 1 } }
  let a := st.source.acquire st.session.currentFiles
  match st.session.clock.race (a.result.map fun _ => a.delay), a.result with
  | .reached clock, some result =>
      let session := ({ st.session with clock } : Session σ).notes a.notes
      let (result, session) := deliver p session result
      settle { st with source := a.source, session } result
  | .stopped clock, _ => .done (.ok ()) { st with session := { st.session with clock } }
  | _, _ => .done (.error .stalled) st

/-- Wait for the next tick and make a pass. -/
def step (p : Pipeline) (o : Options) (st : State σ) : Step σ :=
  if exhausted o st.stats then .done (.ok ()) st
  else
    match st.session.clock.race (some (st.ticker.delay st.session.clock.now)) with
    | .reached clock =>
        pass p { st with ticker := st.ticker.next clock.now, session := { st.session with clock } }
    | .stopped clock => .done (.ok ()) { st with session := { st.session with clock } }
    | .stalled => .done (.error .stalled) st

/-- Make steps until the display ends, at most so many.  Yields nothing if it
has not ended by then. -/
def steps (p : Pipeline) (o : Options) : Nat → State σ → Option (Outcome Unit × State σ)
  | 0, _ => none
  | n + 1, st =>
      match step p o st with
      | .next st => steps p o n st
      | .done result st => some (result, st)

/-- The display before its first step. -/
def begin (source : Source) (o : Options) (period : Nat) (s : Session σ) : State σ where
  source := source
  ticker := ⟨period, s.clock.now * nanosPerMilli⟩
  session := s.info ("Mirroring " ++ source.name ++ " to " ++ Sink.name s.sink ++ " at "
    ++ toString o.fps ++ " fps")

/-- The end of a display: the sink cleans up. -/
def finish : Outcome Unit × State σ → Outcome Stats × Session σ
  | (.ok (), st) => (.ok st.stats, st.session.cleanUp)
  | (.error (.error e), st) => (.error (.error e), st.session.cleanUp)
  | (.error e, st) => (.error e, st.session)

/-- A live display before its first step.  A rate of zero is refused. -/
def start (source : Source) (o : Options) (s : Session σ) : Outcome (State σ) :=
  if o.fps = 0 then report (.config "fps" "frame rate must be positive")
  else (period o.fps).map fun period => begin source o period s

/-- Run a live display of at most so many steps.  Yields nothing if the display
has not ended by then. -/
def run (limit : Nat) (source : Source) (p : Pipeline) (o : Options) (s : Session σ) :
    Option (Outcome Stats × Session σ) :=
  match start source o s with
  | .error e => some (.error e, s)
  | .ok st => (steps p o limit st).map finish

end Live

end Scanout
