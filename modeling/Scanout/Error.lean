/-!
# Errors and failures

An `Error` is a condition the program knows how to report: an image that cannot
be acquired, a layout the device could not take, a write that was refused.  Each
has a category, a message for the operator and a recovery: the loops that show
many frames step over an error whose recovery is to skip, and stop at any other.

A `Failure` is what a computation that yields no value ends in.  Besides the
reported errors there are two that no caller handles.  A *fault* is arithmetic
that leaves its machine word or an index that leaves its buffer.  A computation
is *stalled* when it waits for an event that will never come.

`Error.skippable_iff` says which errors the loops step over.
-/

namespace Scanout

/-! ## Reported errors -/

/-- What can go wrong while pixels are scaled. -/
inductive ScaleError where
  /-- The source holds another number of bytes than its size asks for. -/
  | sourceLength (expected actual : Nat)
  /-- The destination is shorter than the canvas. -/
  | bufferTooSmall (needed actual : Nat)
deriving DecidableEq, Repr

/-- A condition that is reported to the operator. -/
inductive Error where
  /-- An image could not be acquired or decoded. -/
  | sourceUnavailable (origin reason : String)
  /-- A picture without pixels. -/
  | invalidDimensions (width height : Nat)
  /-- A frame of another size than the layout's. -/
  | dimensionMismatch (expectedWidth expectedHeight actualWidth actualHeight : Nat)
  /-- A row stride that cannot hold a row of pixels. -/
  | invalidStride (stride width minimum : Nat)
  /-- The device refused a frame. -/
  | sinkWriteFailure (target reason : String)
  /-- The device node does not exist. -/
  | deviceNotFound (path : String)
  /-- A value that no configuration may hold. -/
  | config (field reason : String)
  /-- The pixels could not be scaled. -/
  | scale (cause : ScaleError)
  /-- The operating system refused an operation. -/
  | io (operation reason : String)
deriving DecidableEq, Repr

/-- The text of a scaling error. -/
def ScaleError.message : ScaleError → String
  | .sourceLength expected actual =>
      "Source buffer holds " ++ toString actual ++ " bytes, expected " ++ toString expected
  | .bufferTooSmall needed actual =>
      "Output buffer too small: " ++ toString actual ++ " bytes, need " ++ toString needed

/-- The text of an error, as the operator reads it. -/
def Error.message : Error → String
  | .sourceUnavailable origin reason => "source '" ++ origin ++ "' unavailable: " ++ reason
  | .invalidDimensions width height =>
      "invalid dimensions " ++ toString width ++ "x" ++ toString height
        ++ ": both sides must be positive"
  | .dimensionMismatch expectedWidth expectedHeight actualWidth actualHeight =>
      "frame is " ++ toString actualWidth ++ "x" ++ toString actualHeight
        ++ " but the encoding expects " ++ toString expectedWidth ++ "x" ++ toString expectedHeight
  | .invalidStride stride width minimum =>
      "stride " ++ toString stride ++ " is smaller than one packed row (" ++ toString minimum
        ++ " bytes for width " ++ toString width ++ ")"
  | .sinkWriteFailure target reason => "write to '" ++ target ++ "' failed: " ++ reason
  | .deviceNotFound path => "projector device " ++ path ++ " not found; is the driver loaded?"
  | .config field reason => "configuration error in '" ++ field ++ "': " ++ reason
  | .scale cause => "resampling failed: " ++ cause.message
  | .io operation reason => "I/O error during " ++ operation ++ ": " ++ reason

/-- The one-word kind of an error. -/
def Error.category : Error → String
  | .sourceUnavailable .. => "source_unavailable"
  | .invalidDimensions .. => "invalid_dimensions"
  | .dimensionMismatch .. => "dimension_mismatch"
  | .invalidStride .. => "invalid_stride"
  | .sinkWriteFailure .. => "sink_write_failure"
  | .deviceNotFound .. => "device_not_found"
  | .config .. => "config"
  | .scale .. => "scale"
  | .io .. => "io"

/-- The text of the condition underneath an error, if there is one. -/
def Error.cause : Error → Option String
  | .scale cause => some cause.message
  | .io _ reason => some reason
  | _ => none

/-! ## Recovery -/

/-- What a loop over many frames does about an error. -/
inductive Recovery where
  /-- Drop the frame at hand and go on. -/
  | skip (reason : String)
  /-- Stop and report. -/
  | abort
deriving DecidableEq, Repr

/-- How much harm an error does. -/
inductive Severity where
  /-- Only the frame at hand is lost. -/
  | warning
  /-- The run cannot go on. -/
  | fatal
deriving DecidableEq, Repr

/-- The recovery from an error. -/
def Error.recovery : Error → Recovery
  | .sourceUnavailable .. => .skip "source frame unavailable"
  | .sinkWriteFailure .. => .skip "sink rejected the frame"
  | _ => .abort

/-- A loop over many frames steps over this error. -/
def Error.skippable : Error → Bool
  | .sourceUnavailable .. => true
  | .sinkWriteFailure .. => true
  | _ => false

def Error.severity (e : Error) : Severity := if e.skippable then .warning else .fatal

theorem Error.skippable_iff (e : Error) :
    e.skippable = true ↔ ∃ reason, e.recovery = .skip reason := by
  cases e <;> simp [skippable, recovery]

/-! ## Failures -/

/-- How a computation ends that yields no value. -/
inductive Failure where
  | error (e : Error)
  /-- Arithmetic left its machine word, or an index left its buffer. -/
  | fault
  /-- The computation waits for an event that never comes. -/
  | stalled
deriving DecidableEq, Repr

/-- Results are compared by what they hold. -/
instance decEqExcept {ε α : Type} [DecidableEq ε] [DecidableEq α] : DecidableEq (Except ε α)
  | .ok a, .ok b => decidable_of_iff (a = b) (by simp)
  | .error e, .error f => decidable_of_iff (e = f) (by simp)
  | .ok _, .error _ => isFalse (by simp)
  | .error _, .ok _ => isFalse (by simp)

/-- A value, or the failure that stands in its place. -/
abbrev Outcome (α : Type) := Except Failure α

theorem bind_eq_ok {ε α β : Type} {x : Except ε α} {f : α → Except ε β} {b : β} :
    x >>= f = .ok b ↔ ∃ a, x = .ok a ∧ f a = .ok b := by
  cases x <;> simp [bind, Except.bind]

/-- End with a reported error. -/
def report {α : Type} (e : Error) : Outcome α := .error (.error e)

def fault {α : Type} : Outcome α := .error .fault

/-- One more than the largest 64-bit word: two to the power of 64. -/
def wordLimit : Nat := 18446744073709551616

/-- A 64-bit word: the number itself, or a fault where it does not fit. -/
def word (n : Nat) : Outcome Nat := if n < wordLimit then .ok n else fault

theorem word_eq_ok_iff {n m : Nat} : word n = .ok m ↔ n < wordLimit ∧ m = n := by
  by_cases h : n < wordLimit
  · simp [word, h, eq_comm]
  · simp [word, h, fault]

end Scanout
