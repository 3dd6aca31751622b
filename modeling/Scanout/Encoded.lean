import Scanout.Frame
import Scanout.Layout

/-!
# Encoded frames

The device reads a flat buffer of `stride` bytes for every row of its canvas:

    row r:  r * stride             first byte of the pixels, arranged in the layout's channel order
            r * stride + 3 * width first byte of the padding, all zero
            (r + 1) * stride       the next row

It takes exactly `stride * height` bytes, and a buffer of another length would
shear every following row.

`encode` writes a frame in a layout and `Encoded.decode` reads it back with any
channel order.  A layout in channel order `rgb` copies whole rows, any other
arranges pixel by pixel.
-/

namespace Scanout

/-- A frame as the device reads it. -/
structure Encoded where
  size : Size
  /-- Bytes per row. -/
  stride : Nat
  /-- All rows in order. -/
  bytes : ByteArray
deriving DecidableEq

namespace Encoded

/-- Bytes of the pixels of a row. -/
def rowBytes (e : Encoded) : Nat := 3 * e.size.width

/-- Zero bytes at the end of every row. -/
def padding (e : Encoded) : Nat := e.stride - e.rowBytes

/-- All bytes of row `r`, if the buffer has it. -/
def row? (e : Encoded) (r : Nat) : Option ByteArray := Bytes.slice? e.bytes (r * e.stride) e.stride

/-- The pixel bytes of row `r`. -/
def rowPixels? (e : Encoded) (r : Nat) : Option ByteArray :=
  (e.row? r).bind fun row => Bytes.slice? row 0 e.rowBytes

/-- The bytes of row `r` after its pixels. -/
def rowPadding? (e : Encoded) (r : Nat) : Option ByteArray :=
  (e.row? r).bind fun row => Bytes.slice? row e.rowBytes (row.size - e.rowBytes)

end Encoded

/-! ## Writing -/

/-- Append the first `n` pixels of a packed row, each arranged in an order. -/
def appendArranged (o : ChannelOrder) (acc : ByteArray) (n : Nat) (row : ByteArray) : ByteArray :=
  Bytes.appendPixels acc n fun x => o.apply (Bytes.pixelAt row (3 * x))

/-- Append one row of a layout: the pixels of a packed row, then the padding. -/
def Layout.writeRow (l : Layout) (acc row : ByteArray) : ByteArray :=
  Bytes.zeros (if l.order = .rgb then acc ++ row else appendArranged l.order acc l.width row)
    l.padding

/-- Append `n` rows of a frame from row `y` on. -/
def writeRows (f : Frame) (l : Layout) : (n y : Nat) → ByteArray → Outcome ByteArray
  | 0, _, acc => .ok acc
  | n + 1, y, acc =>
      match f.row? y with
      | none => fault
      | some row => writeRows f l n (y + 1) (l.writeRow acc row)

/-- Write a frame in a layout of its size. -/
def encode (f : Frame) (l : Layout) : Outcome Encoded :=
  if f.size ≠ l.toSize then report (.dimensionMismatch l.width l.height f.width f.height)
  else
    match l.check with
    | .error e => report e
    | .ok () =>
        (writeRows f l l.height 0 ByteArray.empty).map fun bytes => ⟨l.toSize, l.stride, bytes⟩

/-! ## Reading back -/

/-- Append the pixels of `n` rows of an encoded frame from row `r` on, each
arranged in an order. -/
def readRows (e : Encoded) (o : ChannelOrder) : (n r : Nat) → ByteArray → Outcome ByteArray
  | 0, _, acc => .ok acc
  | n + 1, r, acc =>
      match e.rowPixels? r with
      | none => fault
      | some row => readRows e o n (r + 1) (appendArranged o acc e.size.width row)

/-- The picture in an encoded frame, if it was written in channel order `o`. -/
def Encoded.decode (e : Encoded) (o : ChannelOrder) : Outcome Frame := do
  Frame.ofBytes e.size (← readRows e o.inverse e.size.height 0 ByteArray.empty)

end Scanout
