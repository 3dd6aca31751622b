import Scanout.CommandLine.Words
import Scanout.Display
import Scanout.Number.Decimal
import Scanout.Sweep
import Scanout.Text.Choice

/-!
# Invocations

An `Invocation` is what a command line asks for: a command and the settings it
runs under.  `Invocation.parse` reads it from the words of the command line.

The flags of the settings may be given before the command or after it.  A flag
that is given in both places has the value that follows the command, but both
values must make sense.
-/

namespace Scanout.CommandLine

open Number (Binary64)

/-! ## Settings and commands -/

/-- The settings that every command runs under. -/
structure Settings where
  /-- The device node that must be there. -/
  device : String := defaultDevice
  /-- The file that the driver reads frames from. -/
  output : String := ({} : FileSink).target
  /-- The record of the calibrated layout. -/
  config : String := ({} : Store).path
  /-- How pixels are resampled. -/
  filter : Filter := .lanczos3
  /-- A file that takes a copy of the log. -/
  logFile : Option String := none
  /-- The device node is looked for. -/
  deviceCheck : Bool := true
  /-- How many seconds each trial stays. -/
  dwell : Binary64 := .finite false 3
deriving DecidableEq, Repr

/-- What is to be done. -/
inductive Command where
  /-- Show a picture until everything is to stop. -/
  | present (image : String) (offset : Offset)
  /-- Try the standard layouts. -/
  | calibrate (image : String) (selection : Selection)
  /-- Try the neighbours of layouts that often work. -/
  | fineTune (image : String) (selection : Selection)
  /-- Show what another screen shows. -/
  | follow (options : Live.Options) (framebuffer : Framebuffer)
deriving DecidableEq, Repr

/-- What a command line asks for. -/
structure Invocation where
  settings : Settings
  command : Command
deriving DecidableEq, Repr

/-! ## Values of flags -/

/-- A value that makes sense, or a refusal. -/
def expect {α : Type} : Option α → Except Refusal α
  | some a => .ok a
  | none => .error .misuse

/-- A path, which is not empty. -/
def path? (s : String) : Option String := if s = "" then none else some s

/-- A signed 32-bit word. -/
def signed32? (s : String) : Option Int :=
  (Binary64.readInteger s.toList).filter fun n => -2147483648 ≤ n && n < 2147483648

/-- An unsigned 32-bit word.  It may have a sign, so minus zero is zero. -/
def unsigned32? (s : String) : Option Nat :=
  ((Binary64.readInteger s.toList).filter fun n => 0 ≤ n && n < 4294967296).map Int.toNat

/-- An unsigned 64-bit word. -/
def unsigned64? (s : String) : Option Nat := Text.readNumeral wordLimit s.toList

/-- The path of a log file. -/
def logFile? (s : String) : Option (Option String) := (path? s).map some

def passes? (s : String) : Option (Option Nat) := (unsigned64? s).map some

def filter? : String → Option Filter := Text.choose? Filter.names false

/-- The name of a pixel format. -/
def format? : String → Option PixelFormat := Text.choose? PixelFormat.names false

/-- A flag whose value is read in some way. -/
def flagFor {α : Type} (name : String) (reader : String → Option α) (dashes : Bool := false) :
    Flag :=
  { name, dashes, accepts := fun s => (reader s).isSome }

/-- The value of a flag, read in some way, or a default if the flag is not given. -/
def Given.read {α : Type} (g : Given) (name : String) (reader : String → Option α) (default : α) :
    Except Refusal α :=
  match g.value? name with
  | some s => expect (reader s)
  | none => .ok default

/-! ## Reading an invocation -/

def settingsFlags : List Flag :=
  [flagFor "device" path?, flagFor "output" path?, flagFor "config" path?, flagFor "filter" filter?,
    flagFor "log-file" logFile?, { name := "no-device-check", valued := false },
    flagFor "dwell" Binary64.read?]

/-- Settings with the flags that are given. -/
def Settings.update (s : Settings) (g : Given) : Except Refusal Settings := do
  return {
    device := ← g.read "device" path? s.device
    output := ← g.read "output" path? s.output
    config := ← g.read "config" path? s.config
    filter := ← g.read "filter" filter? s.filter
    logFile := ← g.read "log-file" logFile? s.logFile
    deviceCheck := s.deviceCheck && !g.has "no-device-check"
    dwell := ← g.read "dwell" Binary64.read? s.dwell }

/-- A kind of command: what its words may be and how they are read. -/
structure Kind where
  name : String
  flags : List Flag
  /-- How many operands it has. -/
  operands : Nat
  /-- The command that the words ask for. -/
  command : Given → Except Refusal Command

/-- The picture that a command is about. -/
def imageOf (g : Given) : Except Refusal String := expect g.operands.head?

/-- The command that shows a picture. -/
def presentKind : Kind where
  name := "show"
  flags := [flagFor "dx" signed32? true, flagFor "dy" signed32? true]
  operands := 1
  command g := do
    let dx ← g.read "dx" signed32? 0
    let dy ← g.read "dy" signed32? 0
    return .present (← imageOf g) ⟨dx, dy⟩

/-- The flag for a sweep without an operator. -/
def unattendedFlag : Flag := { name := "unattended", valued := false }

/-- Who chooses. -/
def selectionOf (g : Given) : Selection :=
  if g.has unattendedFlag.name then .unattended else .interactive

/-- The command that tries the standard layouts. -/
def calibrateKind : Kind where
  name := "calibrate"
  flags := [unattendedFlag]
  operands := 1
  command g := return .calibrate (← imageOf g) (selectionOf g)

/-- The command that tries neighbours of layouts. -/
def fineTuneKind : Kind where
  name := "fine-tune"
  flags := [unattendedFlag]
  operands := 1
  command g := return .fineTune (← imageOf g) (selectionOf g)

/-- The size of a screen whose sides were read from flags. -/
def screenOf (width height : Nat) : Except Refusal Size := expect (Size.ofNat? width height)

/-- The command that shows another screen. -/
def followKind : Kind where
  name := "mirror"
  flags := [flagFor "fps" unsigned32?, flagFor "frames" passes?, flagFor "framebuffer" path?,
    flagFor "fb-width" unsigned32?, flagFor "fb-height" unsigned32?, flagFor "fb-layout" format?]
  operands := 0
  command g := do
    let fps ← g.read "fps" unsigned32? ({} : Live.Options).fps
    let maxPasses ← g.read "frames" passes? none
    let path ← g.read "framebuffer" path? Framebuffer.defaultPath
    let width ← g.read "fb-width" unsigned32? 1024
    let height ← g.read "fb-height" unsigned32? 768
    let format ← g.read "fb-layout" format? .bgra32
    return .follow { fps, maxPasses } { path, size := ← screenOf width height, format }

/-- Every kind of command. -/
def kinds : List Kind := [presentKind, calibrateKind, fineTuneKind, followKind]

/-- The level before the subcommand. -/
def topLevel : Level where
  flags := settingsFlags
  commands := kinds.map Kind.name

/-- The level after a subcommand. -/
def Kind.level (k : Kind) : Level where
  flags := settingsFlags ++ k.flags
  operands := k.operands

/-- The invocation of a kind of command, under settings that were given before it. -/
def Kind.parse (k : Kind) (settings : Settings) (words : List String) :
    Except Refusal Invocation := do
  let (given, _) ← k.level.read words {}
  let settings ← settings.update given
  return ⟨settings, ← k.command given⟩

/-- The invocation that a command line asks for. -/
def Invocation.parse (words : List String) : Except Refusal Invocation := do
  let (given, rest) ← topLevel.read words {}
  let settings ← ({} : Settings).update given
  let (name, words) ← expect rest
  (← expect (kinds.find? fun k => k.name == name)).parse settings words

example : Invocation.parse ["--output", "a", "show", "x.ppm", "--dx", "-3", "--output=b"]
    = .ok ⟨{ output := "b" }, .present "x.ppm" ⟨-3, 0⟩⟩ := by decide +kernel
example : Invocation.parse ["mirror", "--fps=-0", "--frames", "7"]
    = .ok ⟨{}, .follow { fps := 0, maxPasses := some 7 }
        { size := ⟨1024, 768, by decide, by decide⟩, format := .bgra32 }⟩ := by decide +kernel
example : Invocation.parse [] = .error .misuse ∧ Invocation.parse ["show"] = .error .misuse
    ∧ Invocation.parse ["fine_tune", "a"] = .error .misuse := by decide +kernel

end Scanout.CommandLine
