import Scanout.Layout

/-!
# Trials

A sweep tries one layout after the other.  Each `Trial` records the layout, its
number in the sweep, whether its frame reached the device, and, after the sweep,
what became of it.

Without an operator, `selectByPadding` names the best trial: of those that
reached the device, one whose rows have padding, the less the better; if none
has padding, the first.  An operator names a trial by its number
(`selectByIndex`).
-/

namespace Scanout

/-- What became of a trial. -/
inductive Verdict where
  /-- It is the layout of choice. -/
  | accepted
  /-- The operator saw it and chose another. -/
  | rejected
  /-- Nobody judged it. -/
  | unrated
deriving DecidableEq, Repr, Inhabited

def Verdict.title : Verdict → String
  | accepted => "Accepted"
  | rejected => "Rejected"
  | unrated => "Unrated"

/-- One layout that a sweep tried. -/
structure Trial where
  /-- Its number in the sweep, from one. -/
  index : Nat
  layout : Layout
  /-- Why its frame did not reach the device, if it did not. -/
  failure : Option String := none
  /-- What became of it. -/
  verdict : Verdict := .unrated
deriving DecidableEq, Repr

namespace Trial

/-- The frame reached the device. -/
def delivered (t : Trial) : Bool := t.failure.isNone

/-- One line that names a trial. -/
def text (t : Trial) : String :=
  toString t.index ++ ": " ++ t.layout.text ++
    match t.failure with
    | none => ""
    | some reason => " [failed: " ++ reason ++ "]"

/-- The first trial that no other comes before. -/
def least (before : Trial → Trial → Bool) : List Trial → Option Trial
  | [] => none
  | t :: ts =>
      match least before ts with
      | none => some t
      | some u => if before u t then some u else some t

/-- A trial has less padding than another, or as much and a lower number. -/
def lessPadding (t u : Trial) : Bool :=
  t.layout.padding < u.layout.padding || (t.layout.padding == u.layout.padding && t.index < u.index)

/-- A trial has a lower number than another. -/
def earlier (t u : Trial) : Bool := t.index < u.index

/-- The delivered trial with the least positive padding, or the earliest
delivered trial if none has padding. -/
def selectByPadding (ts : List Trial) : Option Trial :=
  let ts := ts.filter delivered
  match least lessPadding (ts.filter fun t => 0 < t.layout.padding) with
  | some t => some t
  | none => least earlier ts

/-- The delivered trial with a number. -/
def selectByIndex (ts : List Trial) (index : Nat) : Option Trial :=
  ts.find? fun t => t.index == index && t.delivered

end Trial

end Scanout
