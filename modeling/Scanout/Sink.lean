import Scanout.Files.Tree
import Scanout.Journal

/-!
# Sinks

A sink takes encoded frames to the device.  Any type can be a sink: an instance
of `Sink` says how a value of it takes a frame and how it cleans up.  Both may
change the file tree, and a delivery may ask everything to stop.

`FileSink` is the sink of the real device, whose driver reads frames from a
file.  A delivery replaces the file in one step, so the driver never reads half
a frame, and then compares the size of the file with that of the frame.
Cleaning up removes the file.
-/

namespace Scanout

/-- What became of a delivery. -/
structure Delivery (σ : Type) where
  /-- Whether the frame was taken. -/
  result : Except Error Unit
  sink : σ
  /-- The file tree afterwards. -/
  files : FileTree
  /-- Everything is to stop. -/
  interrupt : Bool := false

/-- What became of a clean-up. -/
structure CleanUp (σ : Type) where
  sink : σ
  /-- The file tree afterwards. -/
  files : FileTree
  /-- Lines for the log. -/
  notes : List Note := []

/-- What takes encoded frames to a device. -/
class Sink (σ : Type) where
  /-- Take a frame. -/
  deliver : σ → FileTree → Encoded → Delivery σ
  /-- Remove what was taken. -/
  cleanUp : σ → FileTree → CleanUp σ
  /-- What the sink is called. -/
  name : σ → String

/-! ## Files -/

/-- A sink that puts every frame into one file. -/
structure FileSink where
  /-- The path of the file. -/
  target : String := "/tmp/gm12u320_image.rgb"
  /-- The number of frames that were taken. -/
  framesWritten : Nat := 0
deriving DecidableEq, Repr

namespace FileSink

/-- The error of a frame that could not be put in place. -/
def deliveryError (s : FileSink) : FileTree.ReplaceError → Error
  | .creating e => .sinkWriteFailure s.target ("creating temp file: " ++ e.message)
  | .replacing e => .sinkWriteFailure s.target e.message

/-- How long the name of the file is while it is being written: `.frame-`, six
characters and `.rgb`. -/
def stagedNameLength : Nat := 17

/-- See that the file has as many bytes as the frame. -/
def checkSize (s : FileSink) (t : FileTree) (frame : Encoded) : Except Error Unit :=
  match t.size s.target with
  | .error e => .error (.sinkWriteFailure s.target e.message)
  | .ok n =>
      if n = frame.bytes.size then .ok ()
      else .error (.sinkWriteFailure s.target
        ("size check failed: expected " ++ toString frame.bytes.size ++ " bytes, found "
          ++ toString n))

/-- Put a frame into the file, and then see that all of it is there. -/
def deliver (s : FileSink) (t : FileTree) (frame : Encoded) : Delivery FileSink :=
  let replaced := t.replace s.target frame.bytes stagedNameLength
  match replaced.result with
  | .error e => { result := .error (s.deliveryError e), sink := s, files := replaced.files }
  | .ok () =>
      match s.checkSize replaced.files frame with
      | .error e => { result := .error e, sink := s, files := replaced.files }
      | .ok () =>
          { result := .ok (), sink := { s with framesWritten := s.framesWritten + 1 },
            files := replaced.files }

/-- Remove the file, if it is there. -/
def cleanUp (s : FileSink) (t : FileTree) : CleanUp FileSink :=
  match t.remove s.target with
  | .ok files => { sink := s, files := files, notes := [⟨.info, "Removed " ++ s.target⟩] }
  | .error .notFound => { sink := s, files := t }
  | .error e =>
      { sink := s, files := t,
        notes := [⟨.warn, "Could not remove " ++ s.target ++ ": " ++ e.message⟩] }

instance : Sink FileSink where
  deliver := deliver
  cleanUp := cleanUp
  name := target

end FileSink

/-- A device node is required before anything else is done. -/
def requireDevice (path : String) (t : FileTree) : Except Error Unit :=
  if t.present path then .ok () else .error (.deviceNotFound path)

/-- The device node of the projector. -/
def defaultDevice : String := "/dev/dri/card2"

/-! ## Scripts -/

/-- A sink that takes every frame but those it was told to refuse.  Deliveries
are numbered from one. -/
structure ScriptedSink where
  /-- The deliveries to refuse, each with its error. -/
  failures : List (Nat × Error) := []
  /-- The delivery during which everything is to stop. -/
  stopOn : Option Nat := none
  /-- The number of deliveries so far. -/
  attempts : Nat := 0
deriving DecidableEq, Repr

namespace ScriptedSink

/-- Take a frame, or refuse it as the script says. -/
def deliver (s : ScriptedSink) (t : FileTree) (_ : Encoded) : Delivery ScriptedSink :=
  let n := s.attempts + 1
  { result := match s.failures.lookup n with
      | some e => .error e
      | none => .ok ()
    sink := { s with attempts := n }
    files := t
    interrupt := s.stopOn == some n }

instance : Sink ScriptedSink where
  deliver := deliver
  cleanUp s t := { sink := s, files := t }
  name _ := "script"

end ScriptedSink

/-! ## Watched files -/

/-- A file sink under watch: once a certain path leads to a file after a
delivery, its bytes are kept and everything is to stop. -/
structure WatchedSink where
  sink : FileSink
  /-- The path under watch. -/
  watched : Option String := none
  /-- The bytes that were first seen there. -/
  seen : Option ByteArray := none
deriving DecidableEq

namespace WatchedSink

/-- What is at the path under watch for the first time. -/
def sight (s : WatchedSink) (t : FileTree) : Option ByteArray :=
  match s.seen, s.watched with
  | none, some path => (t.read path).toOption
  | _, _ => none

/-- Take a frame and look at the path under watch. -/
def deliver (s : WatchedSink) (t : FileTree) (frame : Encoded) : Delivery WatchedSink :=
  let d := s.sink.deliver t frame
  match s.sight d.files with
  | some bytes =>
      { result := d.result, sink := { s with sink := d.sink, seen := some bytes }, files := d.files,
        interrupt := true }
  | none => { result := d.result, sink := { s with sink := d.sink }, files := d.files }

instance : Sink WatchedSink where
  deliver := deliver
  cleanUp s t :=
    let c := s.sink.cleanUp t
    { sink := { s with sink := c.sink }, files := c.files, notes := c.notes }
  name s := s.sink.target

end WatchedSink

end Scanout
