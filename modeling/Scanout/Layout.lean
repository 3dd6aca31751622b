import Scanout.ChannelOrder
import Scanout.Fit
import Scanout.Size

/-!
# Device layouts

A `Layout` is everything the device leaves undocumented about its framebuffer:
the size of its canvas, the number of bytes it reads for a row, the order of the
three channels, and, on our side, the fit that maps a picture onto the canvas.
A candidate layout is plain data.  `Layout.check` tells which candidates
describe a buffer that can exist: positive sides, rows that hold their pixels,
and at most 64 MiB in all.

`alignedStride` is the stride of a device that aligns its rows: the least
multiple of the alignment that holds a row, and some further blocks.
-/

namespace Scanout

/-! ## The length of a frame -/

/-- The largest encoded frame: 64 MiB. -/
def maxBufferLength : Nat := 64 * 1024 * 1024

/-- Length of `height` rows of `stride` bytes, if it is a 64-bit word. -/
def frameLength? (stride height : Nat) : Option Nat :=
  if stride * height < wordLimit then some (stride * height) else none

/-- Rows of `stride` bytes make a frame that is not too large. -/
def frameFits (stride height : Nat) : Bool := (frameLength? stride height).any (· ≤ maxBufferLength)

/-- A length that is no 64-bit word is above the limit, so the exact length decides. -/
theorem frameFits_iff {stride height : Nat} :
    frameFits stride height = true ↔ stride * height ≤ maxBufferLength := by
  have hlimit : maxBufferLength < wordLimit := by decide
  rw [frameFits, frameLength?]
  by_cases hword : stride * height < wordLimit
  · simp [hword]
  · rw [if_neg hword]
    exact ⟨fun h => (nomatch h), fun h => absurd (Nat.lt_of_le_of_lt h hlimit) hword⟩

/-! ## Layouts -/

/-- A candidate, or confirmed, layout of the device framebuffer. -/
structure Layout extends Size where
  /-- Bytes per row. -/
  stride : Nat
  /-- The channel at each byte of a pixel. -/
  order : ChannelOrder
  /-- How a picture is mapped onto the canvas. -/
  fit : Fit
deriving DecidableEq, Repr

namespace Layout

/-- The layout that most devices confirmed. -/
def standard : Layout where
  toSize := .svga
  stride := 2560
  order := .bgr
  fit := .exact

instance : Inhabited Layout := ⟨standard⟩

/-- Bytes of the pixels of a row. -/
def rowBytes (l : Layout) : Nat := 3 * l.width

/-- Zero bytes after the pixels of a row. -/
def padding (l : Layout) : Nat := l.stride - l.rowBytes

/-- Length of an encoded frame, capped at the largest 64-bit word. -/
def bufferLength (l : Layout) : Nat := min (l.stride * l.height) (wordLimit - 1)

/-- Reject a layout no buffer can have: a canvas without pixels, rows that do
not hold their pixels, more than `maxBufferLength` bytes. -/
def check (l : Layout) : Except Error Unit :=
  match l.toSize.check with
  | .error e => .error e
  | .ok () =>
      if l.stride < l.rowBytes then .error (.invalidStride l.stride l.width l.rowBytes)
      else if frameFits l.stride l.height then .ok ()
      else .error (.config "stride" (toString l.stride ++ " bytes x " ++ toString l.height
        ++ " rows exceeds the " ++ toString maxBufferLength ++ " byte frame limit"))

/-- The layout passes the check. -/
def valid (l : Layout) : Bool := l.check.isOk

theorem check_eq_ok_iff (l : Layout) :
    l.check = .ok () ↔ 0 < l.width ∧ 0 < l.height ∧ l.rowBytes ≤ l.stride
      ∧ l.stride * l.height ≤ maxBufferLength := by
  have hpos := l.toSize.positive_iff
  by_cases hp : l.toSize.positive = true
  · obtain ⟨hw, hh⟩ := hpos.mp hp
    have hc : l.toSize.check = .ok () := by rw [Size.check, if_pos hp]
    by_cases hs : l.stride < l.rowBytes
    · rw [check, hc]
      dsimp only
      rw [if_pos hs]
      exact ⟨fun h => (nomatch h), fun h => absurd h.2.2.1 (Nat.not_le_of_lt hs)⟩
    · by_cases hb : l.stride * l.height ≤ maxBufferLength
      · rw [check, hc]
        dsimp only
        rw [if_neg hs, if_pos (frameFits_iff.mpr hb)]
        exact ⟨fun _ => ⟨hw, hh, Nat.le_of_not_lt hs, hb⟩, fun _ => rfl⟩
      · rw [check, hc]
        dsimp only
        rw [if_neg hs, if_neg (mt frameFits_iff.mp hb)]
        exact ⟨fun h => (nomatch h), fun h => absurd h.2.2.2 hb⟩
  · have hc : l.toSize.check = .error (.invalidDimensions l.width l.height) := by
      rw [Size.check, if_neg hp]
    rw [check, hc]
    exact ⟨fun h => (nomatch h), fun h => absurd (hpos.mpr ⟨h.1, h.2.1⟩) hp⟩

theorem valid_iff (l : Layout) : l.valid = true ↔ l.check = .ok () := by
  rw [valid]
  rcases l.check with e | ⟨⟩ <;> simp [Except.isOk, Except.toBool]

/-- The pixels of a layout that passes the check fit in its buffer. -/
theorem byteLength_le {l : Layout} (hl : l.check = .ok ()) : l.byteLength ≤ maxBufferLength := by
  obtain ⟨-, -, hr, hb⟩ := l.check_eq_ok_iff.mp hl
  calc l.byteLength
      = l.rowBytes * l.height := by rw [Size.byteLength, Size.area, rowBytes, Nat.mul_assoc]
    _ ≤ l.stride * l.height := Nat.mul_le_mul_right _ hr
    _ ≤ maxBufferLength := hb

instance (l : Layout) : Decidable (l.check = .ok ()) := decidable_of_iff _ l.valid_iff

/-- One line that names every part of a layout. -/
def text (l : Layout) : String :=
  l.toSize.text ++ " stride=" ++ toString l.stride ++ " pad=" ++ toString l.padding
    ++ " order=" ++ l.order.name ++ " fit=" ++ l.fit.name

end Layout

/-! ## Aligned strides -/

/-- The number of blocks of `a` bytes that hold `n` bytes. -/
def blocks (n a : Nat) : Nat := (n + a - 1) / a

/-- The least multiple of `alignment` that holds a row of `width` pixels, and
`extraBlocks` further blocks.  The alignment must be positive and the result a
64-bit word. -/
def alignedStride (width alignment extraBlocks : Nat) : Outcome Nat := do
  if alignment = 0 then fault
  let row ← word (blocks (3 * width) alignment * alignment)
  let extra ← word (extraBlocks * alignment)
  word (row + extra)

example : Layout.standard.text
    = "800x600 stride=2560 pad=160 order=bgr fit=exact" := by decide +kernel
example : alignedStride 1 (2 ^ 63) 1 = .error .fault := by decide

end Scanout
