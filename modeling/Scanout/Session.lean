import Scanout.Clock
import Scanout.Services
import Scanout.Sink
import Scanout.Text.Split

/-!
# Sessions

A `Session` is all that a run can see and change outside itself: the clock, the
file tree, the sink, the answers the operator is still to give, the services
that it relies on, and the journal of what has happened.  A run takes a session
and yields the one after it.

The lemmas say what an offer and a clean-up add to the journal.
-/

namespace Scanout

/-! ## Operators -/

/-- How the operator answers a question. -/
inductive Answer where
  | line (text : String)
  /-- Not at all, for ever. -/
  | silence
  /-- The question cannot be put. -/
  | failure (e : Error)
deriving DecidableEq, Repr

/-! ## Sessions -/

/-- All that a run sees and changes outside itself. -/
structure Session (σ : Type) where
  clock : Clock := {}
  files : FileTree := {}
  sink : σ
  /-- The answers to come.  When none is left, the operator has gone. -/
  answers : List Answer := []
  services : Services := {}
  /-- What has happened, latest first. -/
  past : List Event := []

namespace Session

variable {σ : Type}

/-- What has happened, in order. -/
def journal (s : Session σ) : List Event := s.past.reverse

/-- The session after an event. -/
def record (s : Session σ) (e : Event) : Session σ := { s with past := e :: s.past }

/-- The session after a line for the log. -/
def note (s : Session σ) (n : Note) : Session σ := s.record (.noted n)

/-- The session after a line of ordinary progress. -/
def info (s : Session σ) (text : String) : Session σ := s.note ⟨.info, text⟩

/-- The session after a warning. -/
def warn (s : Session σ) (text : String) : Session σ := s.note ⟨.warn, text⟩

/-- The session after several lines for the log. -/
def notes (s : Session σ) (ns : List Note) : Session σ := ns.foldl note s

/-- Offer a frame to the sink. -/
def offer [Sink σ] (s : Session σ) (frame : Encoded) : Except Error Unit × Session σ :=
  let d := Sink.deliver s.sink s.files frame
  let clock := if d.interrupt then s.clock.stop else s.clock
  (d.result,
    { s with clock, files := d.files, sink := d.sink, past := .offered frame d.result :: s.past })

/-- Let the sink clean up. -/
def cleanUp [Sink σ] (s : Session σ) : Session σ :=
  let c := Sink.cleanUp s.sink s.files
  ({ s with files := c.files, sink := c.sink, past := .cleanedUp :: s.past } : Session σ).notes
    c.notes

@[simp] theorem journal_record (s : Session σ) (e : Event) :
    (s.record e).journal = s.journal ++ [e] := by
  simp [journal, record]

theorem journal_offer [Sink σ] (s : Session σ) (frame : Encoded) :
    (s.offer frame).2.journal = s.journal ++ [.offered frame (s.offer frame).1] := by
  simp [journal, offer]

/-! ## Reading a journal -/

/-- The number of frames that were offered. -/
def attempts (s : Session σ) : Nat := (s.journal.filterMap Event.offered?).length

def cleanUps (s : Session σ) : Nat := s.journal.countP Event.isCleanUp

/-- The frames that were taken. -/
def accepted (s : Session σ) : List Encoded := s.journal.filterMap Event.accepted?

/-- The lists of trials that the operator was shown. -/
def presentations (s : Session σ) : List (List Trial) := s.journal.filterMap Event.presented?

/-- The questions that the operator was asked. -/
def questions (s : Session σ) : List String := s.journal.filterMap Event.asked?

/-- The notes that were made. -/
def notesMade (s : Session σ) : List Note := s.journal.filterMap Event.noted?

/-- The last line of the log that a note starts. -/
def lastLine (s : Session σ) : Option String :=
  (s.past.findSome? Event.noted?).bind fun n =>
    (Text.lines (n.line ++ "\n").toList).head?.map String.ofList

/-! ## The log in a file -/

/-- The log as a file takes it. -/
def log (s : Session σ) : String := String.join (s.notesMade.map (Note.stamped someTime))

/-- The files as they are found now: if one is held open for the log, the log is
written at its end. -/
def currentFiles (s : Session σ) : FileTree :=
  if s.files.holds then s.files.append s.log.toUTF8 else s.files

end Session

end Scanout
