import Scanout.Encoded
import Scanout.Trial

/-!
# Journals

What a run does to the world outside, in order: frames offered to the device,
clean-ups, what the operator sees and is asked, records saved, and notes for the
log.  A run adds `Event`s to its journal and never looks at it, so a journal is
a complete account of the run.
-/

namespace Scanout

/-! ## Notes -/

/-- How urgent a note is. -/
inductive Level where
  | info
  | warn
deriving DecidableEq, Repr

/-- A line for the log. -/
structure Note where
  /-- How urgent it is. -/
  level : Level
  text : String
deriving DecidableEq, Repr

def Level.name : Level → String
  | info => "INFO"
  | warn => "WARN"

/-- A character as the log shows it.  Those that could control a terminal are
written as their numbers. -/
def shown (c : Char) : String :=
  let digits := String.ofList (Nat.toDigits 16 c.toNat)
  if c = '\x07' ∨ c = '\x08' ∨ c = '\x0c' then "\\x0" ++ digits
  else if c = '\x1b' ∨ c = '\x7f' then "\\x" ++ digits
  else if 128 ≤ c.toNat ∧ c.toNat < 160 then "\\u\x7b" ++ digits ++ "\x7d"
  else String.singleton c

/-- A note as the log shows it. -/
def Note.line (n : Note) : String := n.level.name ++ " " ++ String.join (n.text.toList.map shown)

/-- A note as a log file takes it, with the time of day. -/
def Note.stamped (time : String) (n : Note) : String := time ++ "  " ++ n.line ++ "\n"

/-- A time of day, for a log that nobody reads by the clock. -/
def someTime : String := "2026-01-01T00:00:00.000000Z"

example : Note.line ⟨.info, "a\x1b\x08\x0bb"⟩ = "INFO a\\x1b\\x08\x0bb" := by decide +kernel
example : Note.line ⟨.warn, "\u0085é"⟩ = "WARN \\u\x7b85\x7dé" := by decide +kernel

/-! ## Events -/

/-- Something a run does that can be seen from outside. -/
inductive Event where
  /-- A frame was offered to the device, and taken or refused. -/
  | offered (frame : Encoded) (result : Except Error Unit)
  /-- The device was told to remove what it holds. -/
  | cleanedUp
  /-- The operator was shown some trials. -/
  | presented (trials : List Trial)
  /-- The operator was asked a question. -/
  | asked (prompt : String)
  /-- A layout was saved. -/
  | saved (layout : Layout)
  /-- A line went to the log. -/
  | noted (note : Note)
deriving DecidableEq

namespace Event

/-- The frame that was offered and taken. -/
def accepted? : Event → Option Encoded
  | offered frame (.ok ()) => some frame
  | _ => none

/-- The frame that was offered. -/
def offered? : Event → Option Encoded
  | offered frame _ => some frame
  | _ => none

def isCleanUp : Event → Bool
  | cleanedUp => true
  | _ => false

/-- The trials that were shown. -/
def presented? : Event → Option (List Trial)
  | presented trials => some trials
  | _ => none

/-- The question that was asked. -/
def asked? : Event → Option String
  | asked prompt => some prompt
  | _ => none

/-- The note that was made. -/
def noted? : Event → Option Note
  | noted note => some note
  | _ => none

end Event

end Scanout
