import Scanout.CommandLine.Run
import Std.Async.Signal
import Std.Time

/-!
# The program

`main` carries out a command line on the files of this machine.

What a run does is a function of the files, the answers of the operator and the
moment to stop.  So the program computes a run as far as it is determined and
carries out the events of its journal.  When it learns more, an answer or that
it is to stop, it computes the run again.  The journal of the new run starts
with what has been carried out.

A display of another screen looks at the files before every step.
-/

namespace Scanout.Program

open CommandLine

/-! ## Reading files -/

/-- The entry at a path. -/
def probe (path : String) : IO (Option Entry) := do
  try return some (.file (← IO.FS.readBinFile path) false)
  catch
    | .noFileOrDirectory .. => return none
    | .inappropriateType _ code _ => return if code = 21 then some .directory else none
    | _ => return some (.file ByteArray.empty false)

/-- A tree with the entries along a path. -/
def addPath (t : FileTree) (path : String) : IO FileTree := do
  let start : FileTree × Place × List String := (t, t.origin path, [])
  let (t, _) ← (Path.split path).foldlM (fun (t, place, parts) part => do
    let parts := parts ++ [part]
    if Path.isHere part then return (t, place, parts)
    else if part = ".." then return (t, place.dropLast, parts)
    else
      let place := place ++ [part]
      match ← probe (Path.ofParts parts) with
      | some e => return (t.put place e, place, parts)
      | none => return (t, place, parts)) start
  return t

/-- A tree with what is found along some paths. -/
def snapshot (paths : List String) : IO FileTree := do
  let home := (Path.split (← IO.currentDir).toString).filter (· != "")
  paths.foldlM addPath { home }

/-- The paths that matter to an invocation. -/
def pathsOf (i : Invocation) : List String :=
  [i.settings.device, i.settings.output, i.settings.config] ++ i.settings.logFile.toList ++
    match i.command with
    | .present image _ => [image]
    | .calibrate image _ => [image]
    | .fineTune image _ => [image]
    | .follow _ framebuffer => [framebuffer.path]

/-! ## Waiting -/

/-- What tells whether the operator has interrupted the program. -/
abbrev Interrupt := IO Bool

def listen : IO Interrupt := do
  let waiter ← Std.Async.Signal.Waiter.mk .sigint false
  let signal ← waiter.wait
  return IO.hasFinished signal

/-- Wait until something is done.  Yields whether an interrupt came first. -/
partial def waitUntil (interrupt : Interrupt) (isDone : IO Bool) : IO Bool := do
  if ← interrupt then return true
  else if ← isDone then return false
  else
    IO.sleep 5
    waitUntil interrupt isDone

/-- Wait for some milliseconds.  Yields whether an interrupt came first. -/
def waitFor (interrupt : Interrupt) (ms : Nat) : IO Bool := do
  let start ← IO.monoMsNow
  waitUntil interrupt do return start + ms ≤ (← IO.monoMsNow)

/-- Read a line that the operator types, without its end.  Yields nothing if an
interrupt came first, and `some none` at the end of the input. -/
def readLine (interrupt : Interrupt) : IO (Option (Option String)) := do
  let input ← IO.getStdin
  let reading ← IO.asTask input.getLine
  if ← waitUntil interrupt (IO.hasFinished reading) then return none
  let line ← IO.ofExcept reading.get
  return some (if line.isEmpty then none else some line)

/-! ## Carrying out events -/

/-- Put bytes into a file in one step. -/
def replaceFile (path : String) (bytes : ByteArray) : IO Unit := do
  let staged := path ++ ".part"
  IO.FS.writeBinFile staged bytes
  IO.FS.rename staged path

/-- The time of day, by the clock of the world. -/
def timeOfDay : IO String := do
  let time := Std.Time.WallTime.ofTimestamp (← Std.Time.Timestamp.now) .zero
  return (Std.Time.PlainDateTime.ofWallTime time).format "uuuu-MM-dd'T'HH:mm:ss.SSSSSS'Z'"

/-- Write a line to the log. -/
def writeNote (log : Option IO.FS.Handle) (n : Note) : IO Unit := do
  (← IO.getStderr).putStrLn n.line
  if let some log := log then
    log.putStr (n.stamped (← timeOfDay))
    log.flush

/-- Carry out an event. -/
def carryOut (c : Settings) (log : Option IO.FS.Handle) : Event → IO Unit
  | .offered frame (.ok ()) => replaceFile c.output frame.bytes
  | .offered _ (.error _) => return
  | .cleanedUp => try IO.FS.removeFile c.output catch _ => return
  | .saved layout => replaceFile c.config (Record.write layout).toUTF8
  | .noted n => writeNote log n
  | e => do
      let out ← IO.getStdout
      out.putStr (spoken e)
      out.flush

/-- Report how a run ended.  Yields the exit code. -/
def conclude (r : Except Trouble Unit) : IO UInt32 := do
  (← IO.getStderr).putStr (reportText r)
  return UInt32.ofNat (exitCode r)

/-! ## Runs that are computed again -/

/-- What is known about a run. -/
structure Known where
  /-- The answers of the operator, followed by a silence as long as there may be
  more. -/
  answers : List Answer := [.silence]
  stopAt : Option Nat := none
  /-- The number of events that have been carried out. -/
  done : Nat := 0
  /-- When the trial at hand began, in the time of the run. -/
  now : Nat := 0

/-- More steps than any run takes. -/
def stepLimit : Nat := 4611686018427387904

/-- How long a frame stays before the run goes on. -/
def dwellOf (i : Invocation) : Nat :=
  match i.command, nanosOf i.settings.dwell with
  | .calibrate .., .ok nanos => millisOf nanos
  | .fineTune .., .ok nanos => millisOf nanos
  | _, _ => 0

/-- The run as far as it is determined. -/
def compute (i : Invocation) (files : FileTree) (k : Known) : Part FileSink Unit :=
  i.run stepLimit
    { clock := { stopAt := k.stopAt }, files, sink := { target := i.settings.output },
      answers := k.answers }

/-- Carry out events in order.  Stops early when an interrupt comes while a
frame stays. -/
def carryOutAll (i : Invocation) (log : Option IO.FS.Handle) (interrupt : Interrupt) :
    List Event → Known → IO Known
  | [], k => return k
  | e :: es, k => do
      carryOut i.settings log e
      let k := { k with done := k.done + 1 }
      match e with
      | .offered _ (.ok ()) =>
          let dwell := dwellOf i
          if dwell ≠ 0 && k.stopAt.isNone && (← waitFor interrupt dwell) then
            return { k with stopAt := some (k.now + dwell) }
          else carryOutAll i log interrupt es { k with now := k.now + dwell }
      | _ => carryOutAll i log interrupt es k

/-- The run has put a question that is not answered yet. -/
def isAsking (s : Session FileSink) : Bool :=
  (s.past.find? fun e => e.noted?.isNone).any fun e => e.asked?.isSome

/-- Learn what a run waits for. -/
def learn (interrupt : Interrupt) (asking : Bool) (k : Known) : IO Known := do
  let stopped := { k with stopAt := some (k.now + 1) }
  if asking then
    match ← readLine interrupt with
    | none => return stopped
    | some none => return { k with answers := k.answers.dropLast }
    | some (some line) => return { k with answers := k.answers.dropLast ++ [.line line, .silence] }
  else
    let _ ← waitUntil interrupt (return false)
    return stopped

/-- Compute a run and carry it out, until it has ended. -/
partial def carryOn (i : Invocation) (files : FileTree) (log : Option IO.FS.Handle)
    (interrupt : Interrupt) (k : Known) : IO UInt32 := do
  let (r, s) := compute i files k
  let l ← carryOutAll i log interrupt (s.journal.drop k.done) k
  if l.stopAt != k.stopAt then carryOn i files log interrupt l
  else if r = .error .stalled then carryOn i files log interrupt (← learn interrupt (isAsking s) l)
  else conclude r

/-! ## Displays of another screen -/

/-- The session with its journal carried out. -/
def settled (c : Settings) (log : Option IO.FS.Handle) (s : Session FileSink) :
    IO (Session FileSink) := do
  s.journal.forM (carryOut c log)
  return { s with past := [] }

/-- The session at this time, with the files as they are. -/
def refreshed (i : Invocation) (start : Nat) (s : Session FileSink) : IO (Session FileSink) := do
  let files ← snapshot (pathsOf i)
  return { s with files, clock := { s.clock with now := (← IO.monoMsNow) - start } }

/-- Make the steps of a live display. -/
partial def showSteps (i : Invocation) (o : Live.Options) (log : Option IO.FS.Handle)
    (interrupt : Interrupt) (start : Nat) (p : Pipeline) (st : Live.State FileSink) :
    IO UInt32 := do
  let session ← refreshed i start (← settled i.settings log st.session)
  let stop ← waitFor interrupt (st.ticker.delay session.clock.now)
  let session ← refreshed i start session
  let session := if stop then { session with clock := session.clock.stop } else session
  match Live.step p o { st with session } with
  | .next st => showSteps i o log interrupt start p st
  | .done result st =>
      let (r, s) := endFollow (Live.finish (result, st))
      let _ ← settled i.settings log s
      conclude r

/-- Show another screen. -/
def follow (i : Invocation) (o : Live.Options) (framebuffer : Framebuffer) (files : FileTree)
    (log : Option IO.FS.Handle) (interrupt : Interrupt) : IO UInt32 := do
  let session : Session FileSink := { files, sink := { target := i.settings.output } }
  match i.settings.prepare session with
  | (.error e, s) =>
      let _ ← settled i.settings log s
      conclude (.error e)
  | (.ok (), s) =>
      match startFollow i.settings o framebuffer s with
      | (.ok (p, st), _) => showSteps i o log interrupt (← IO.monoMsNow) p st
      | (.error e, s) =>
          let _ ← settled i.settings log s
          conclude (.error e)

/-! ## Command lines -/

/-- How the program is used. -/
def usage : List String :=
  ["Usage: projector [OPTIONS] <COMMAND>",
    "",
    "Commands:",
    "  show <IMAGE> [--dx N] [--dy N]",
    "  calibrate <IMAGE> [--unattended]",
    "  fine-tune <IMAGE> [--unattended]",
    "  mirror [--fps N] [--frames N] [--framebuffer PATH] [--fb-width N] [--fb-height N] "
      ++ "[--fb-layout LAYOUT]",
    "",
    "Options:",
    "  --device PATH  --output PATH  --config PATH  --filter FILTER  --log-file PATH",
    "  --no-device-check  --dwell SECONDS  --help"]

/-- Refuse a command line. -/
def refuseWords (r : Refusal) : IO UInt32 := do
  let out ← match r with
    | .help => IO.getStdout
    | .misuse => IO.getStderr
  usage.forM fun line => out.putStrLn line
  return UInt32.ofNat r.exitCode

/-- Open the log file, if there is to be one and it can be opened. -/
def openLogFile (c : Settings) : IO (Option IO.FS.Handle) := do
  match c.logFile with
  | none => return none
  | some path => try return some (← IO.FS.Handle.mk path .append) catch _ => return none

/-- Carry out an invocation. -/
def perform (i : Invocation) : IO UInt32 := do
  let interrupt ← listen
  let files ← snapshot (pathsOf i)
  let log ← openLogFile i.settings
  match i.command with
  | .follow o framebuffer => follow i o framebuffer files log interrupt
  | _ => carryOn i files log interrupt {}

end Scanout.Program

/-- Carry out a command line. -/
def main (words : List String) : IO UInt32 :=
  match Scanout.CommandLine.Invocation.parse words with
  | .error refusal => Scanout.Program.refuseWords refusal
  | .ok i => Scanout.Program.perform i
