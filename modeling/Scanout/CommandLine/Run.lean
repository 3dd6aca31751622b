import Scanout.CommandLine.Invocation
import Scanout.FineTune
import Scanout.Text.Split

/-!
# Running invocations

`Invocation.run` carries out what a command line asks for: it opens the log,
looks for the device, and runs the command over a session.  What it did stands
in the journal of the session: `Session.output` is what the operator reads, and
the notes are the lines of the log.  A run that fails ends in a `Trouble`, which
says what is reported and with which code the program exits.

The log file is only held open here.  `Session.currentFiles` shows it with its
lines, but for the time of day that they carry, so whoever carries out the
journal writes them.
-/

namespace Scanout.CommandLine

/-! ## Troubles -/

/-- What is reported about a run that failed. -/
structure Complaint where
  /-- What went wrong. -/
  text : String
  /-- What it was caused by, and what that was caused by, and so on. -/
  causes : List String := []
deriving DecidableEq, Repr

/-- How a run ends that does not succeed. -/
inductive Trouble where
  | complaint (c : Complaint)
  | fault
  /-- It does not end. -/
  | stalled
deriving DecidableEq, Repr

/-- The complaint about an error. -/
def Complaint.ofError (e : Error) : Complaint := ⟨e.message, e.cause.toList⟩

/-- The complaint about an error that came up during something else. -/
def Complaint.during (text : String) (e : Error) : Complaint := ⟨text, e.message :: e.cause.toList⟩

/-- The lines of a text.  An empty text is one empty line. -/
def linesOf (s : String) : List String := (Text.split '\n' s.toList).map String.ofList

/-- The lines of a text behind a mark.  The lines after the first are indented
by as much as the mark is wide. -/
def behind (mark : String) (s : String) : List String :=
  match linesOf s with
  | [] => []
  | line :: lines =>
      (mark ++ line) :: lines.map (String.ofList (List.replicate mark.length ' ') ++ ·)

/-- The number of a cause, for five columns. -/
def causeNumber (n : Nat) : String :=
  let digits := toString n
  String.ofList (List.replicate (5 - digits.length) ' ') ++ digits ++ ": "

/-- The causes as they are listed: a single one is not numbered. -/
def listCauses : List String → List String
  | [] => []
  | [cause] => ["", "Caused by:"] ++ behind "    " cause
  | causes =>
      ["", "Caused by:"] ++ causes.zipIdx.flatMap fun (cause, n) => behind (causeNumber n) cause

def Complaint.lines (c : Complaint) : List String :=
  linesOf ("Error: " ++ c.text) ++ listCauses c.causes

example : Complaint.lines ⟨"a", ["b", "c"]⟩
    = ["Error: a", "", "Caused by:", "    0: b", "    1: c"] := by
  decide +kernel

def Trouble.ofFailure : Failure → Trouble
  | .error e => .complaint (.ofError e)
  | .fault => .fault
  | .stalled => .stalled

def Trouble.ofError (e : Error) : Trouble := .complaint (.ofError e)

/-- What is reported about the end of a run. -/
def reportText : Except Trouble Unit → String
  | .error (.complaint c) => String.join (c.lines.map (· ++ "\n"))
  | _ => ""

/-- The lines of what is reported about the end of a run. -/
def reportLines (r : Except Trouble Unit) : List String :=
  (Text.lines (reportText r).toList).map String.ofList

/-- The code with which the program exits. -/
def exitCode : Except Trouble Unit → Nat
  | .ok () => 0
  | .error (.complaint _) => 1
  | .error _ => 101

/-- The code with which the program exits that refuses its command line. -/
def Refusal.exitCode : Refusal → Nat
  | help => 0
  | misuse => 2

/-! ## What the operator reads -/

/-- What an event prints on the terminal. -/
def spoken : Event → String
  | .presented trials =>
      "\nCalibration finished. Choose the number of the best result:\n"
        ++ String.join (trials.map fun t => "  " ++ t.text ++ "\n")
  | .asked prompt => prompt ++ " "
  | _ => ""

/-- All that is printed on the terminal during a session. -/
def output {σ : Type} (s : Session σ) : String := String.join (s.journal.map spoken)

/-- The answers in a text that the operator typed. -/
def answersOf (input : String) : List Answer :=
  (Text.lines input.toList).map fun line => .line (String.ofList line)

/-! ## Commands -/

variable {σ : Type} [Sink σ]

/-- How a part of a run ends, and the session after it. -/
abbrev Part (σ α : Type) := Except Trouble α × Session σ

/-- The end of a part that failed with an error. -/
def refuse {α : Type} (e : Error) (s : Session σ) : Part σ α := (.error (.ofError e), s)

/-- The end of a part that came to an outcome. -/
def settle {α : Type} : Outcome α × Session σ → Part σ α
  | (.ok a, s) => (.ok a, s)
  | (.error e, s) => (.error (.ofFailure e), s)

namespace Settings

/-- The store of the calibrated layout. -/
def store (c : Settings) : Store := { path := c.config }

/-- The layout to show pictures in.  The log says where it is from. -/
def layout (c : Settings) (s : Session σ) : Layout × Session σ :=
  (c.store.load s.currentFiles, s.notes (c.store.loadNotes s.currentFiles))

end Settings

/-- Show a picture until everything is to stop. -/
def runPresent (c : Settings) (image : String) (offset : Offset) (s : Session σ) : Part σ Unit :=
  let (layout, s) := c.layout s
  match (Location.classify image s.currentFiles).source s.services,
      Pipeline.make layout (s.services.resampler c.filter) offset with
  | .error e, _ => refuse e s
  | _, .error e => refuse e s
  | .ok source, .ok p => settle (source.show p s)

/-- Acquire the picture at a location. -/
def loadPicture (location : String) (s : Session σ) : Part σ Frame :=
  match (Location.classify location s.currentFiles).source s.services with
  | .error e => refuse e s
  | .ok source =>
      let a := source.acquire s.currentFiles
      let s := ({ s with clock := s.clock.advance a.delay } : Session σ).notes a.notes
      match a.result with
      | some (.ok f) => (.ok f, s)
      | some (.error (.error e)) => (.error (.complaint (.during ("loading " ++ location) e)), s)
      | some (.error e) => (.error (.ofFailure e), s)
      | none => (.error .stalled, s)

/-- What the log says after a sweep. -/
def conclusion (r : Sweep.Report) (path : String) : Note :=
  match r.winner, r.storeWritten, r.cancelled with
  | some t, true, _ => ⟨.info, "Saved " ++ Sweep.tag t.index t.layout.text ++ " to " ++ path⟩
  | _, _, true => ⟨.info, "Calibration cancelled; " ++ path ++ " untouched"⟩
  | _, _, false => ⟨.warn, "No configuration saved"⟩

/-- Nanoseconds of a number of seconds, or why they are no time span.  A time
span is not negative, and its seconds are a 64-bit word. -/
def nanosOf : Number.Binary64 → Except String Nat
  | .undefined => .error tooBig
  | .infinite negative => .error (if negative then belowZero else tooBig)
  | .finite negative m =>
      if negative ∧ m ≠ 0 then .error belowZero
      else if (wordLimit : Rat) ≤ m then .error tooBig
      else .ok (Number.roundHalfEven (m * 1000000000)).toNat
where
  /-- The reason for a number below zero. -/
  belowZero : String := "cannot convert float seconds to Duration: value is negative"
  /-- The reason for a number that is too large. -/
  tooBig : String := "cannot convert float seconds to Duration: value is either too big or NaN"

example : (Number.Binary64.read? "-1e-400").map nanosOf = some (.ok 0) := by decide +kernel

/-- Milliseconds of a number of nanoseconds, rounded up. -/
def millisOf (nanos : Nat) : Nat := (nanos + nanosPerMilli - 1) / nanosPerMilli

/-- Try the layouts of a plan with a picture. -/
def runSweep (c : Settings) (selection : Selection) (plan : Outcome (List Layout)) (image : String)
    (s : Session σ) : Part σ Unit :=
  match loadPicture image s with
  | (.error e, s) => (.error e, s)
  | (.ok f, s) =>
      match nanosOf c.dwell, plan with
      | .error reason, _ => (.error (.complaint ⟨"invalid dwell " ++ c.dwell.text, [reason]⟩), s)
      | _, .error e => (.error (.ofFailure e), s)
      | .ok nanos, .ok plan =>
          let dwell := millisOf nanos
          let sweep : Sweep :=
            { plan, dwell, excess := dwell * nanosPerMilli - nanos, selection,
              store := some c.store, filter := s.services.resampler c.filter }
          match sweep.run f s with
          | (.ok r, s) => (.ok (), s.note (conclusion r c.config))
          | (.error e, s) => (.error (.ofFailure e), s)

/-- The layouts near which to look for a better one: the saved layout, if there
is one, and those that often work. -/
def basesOf (c : Settings) (s : Session σ) : List Layout × Session σ :=
  match c.store.tryLoad s.currentFiles with
  | .ok (some l) => (l :: FineTune.defaultBases, s)
  | .ok none => (FineTune.defaultBases, s)
  | .error e => (FineTune.defaultBases, s.warn ("Ignoring saved layout: " ++ e.message))

/-- The picture of another screen, or a test pattern while there is none. -/
def followed (framebuffer : Framebuffer) (l : Layout) : Source :=
  .chain [.framebuffer framebuffer, .pattern { size := l.toSize }]

/-- What the log says after another screen was shown. -/
def farewell (stats : Live.Stats) : String :=
  "Mirror finished: " ++ toString stats.delivered ++ " frames delivered, "
    ++ toString stats.sourceFailures ++ " source failures, "
    ++ toString stats.sinkFailures ++ " write failures"

/-- Begin to show what another screen shows. -/
def startFollow (c : Settings) (options : Live.Options) (framebuffer : Framebuffer)
    (s : Session σ) : Part σ (Pipeline × Live.State σ) :=
  let (layout, s) := c.layout s
  match Pipeline.make layout (s.services.resampler c.filter) ⟨0, 0⟩,
      Live.start (followed framebuffer layout) options s with
  | .error e, _ => refuse e s
  | _, .error e => (.error (.ofFailure e), s)
  | .ok p, .ok st => (.ok (p, st), st.session)

/-- The end of showing what another screen shows. -/
def endFollow : Outcome Live.Stats × Session σ → Part σ Unit
  | (.ok stats, s) => (.ok (), s.info (farewell stats))
  | (.error e, s) => (.error (.ofFailure e), s)

/-- Show what another screen shows, in at most so many steps. -/
def runFollow (limit : Nat) (c : Settings) (options : Live.Options) (framebuffer : Framebuffer)
    (s : Session σ) : Part σ Unit :=
  match startFollow c options framebuffer s with
  | (.error e, s) => (.error e, s)
  | (.ok (p, st), s) =>
      match Live.steps p options limit st with
      | some ended => endFollow (Live.finish ended)
      | none => (.error .stalled, s)

/-! ## Invocations -/

/-- Open the log file, if there is to be one. -/
def openLog (c : Settings) (t : FileTree) : Except Error FileTree :=
  match c.logFile with
  | none => .ok t
  | some path =>
      match t.hold path with
      | .ok t => .ok t
      | .error e => .error (.io ("opening log file " ++ path) e.message)

/-- Look for the device node, unless that is not wanted. -/
def checkDevice (c : Settings) (t : FileTree) : Except Error Unit :=
  if c.deviceCheck then requireDevice c.device t else .ok ()

/-- Run a command under its settings. -/
def Command.run (limit : Nat) (c : Settings) (s : Session σ) : Command → Part σ Unit
  | present image offset => runPresent c image offset s
  | calibrate image selection =>
      runSweep c selection (Sweep.planOf (some Candidates.standard) []) image s
  | fineTune image selection =>
      let (bases, s) := basesOf c s
      runSweep c selection (Sweep.planOf none (Scanout.fineTune bases)) image s
  | follow options framebuffer => runFollow limit c options framebuffer s

/-- What the log says about the device node that was found. -/
def deviceNote (c : Settings) : Note := ⟨.info, "Projector detected at " ++ c.device⟩

/-- What is done before any command: the log is opened and the device is looked for. -/
def Settings.prepare (c : Settings) (s : Session σ) : Part σ Unit :=
  match openLog c s.files with
  | .error e => refuse e s
  | .ok files =>
      let s := { s with files }
      match checkDevice c files with
      | .error e => refuse e s
      | .ok () => (.ok (), if c.deviceCheck then s.note (deviceNote c) else s)

/-- Carry out an invocation.  A display of another screen is broken off after so
many steps. -/
def Invocation.run (limit : Nat) (i : Invocation) (s : Session σ) : Part σ Unit :=
  match i.settings.prepare s with
  | (.error e, s) => (.error e, s)
  | (.ok (), s) => i.command.run limit i.settings s

/-- The sink of an invocation, with a path to watch if there is one. -/
def Invocation.sink (i : Invocation) (watched : Option String) : WatchedSink :=
  { sink := { target := i.settings.output }, watched }

end Scanout.CommandLine
