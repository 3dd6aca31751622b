import Scanout.Frame
import Scanout.Scale.Draw

/-!
# Composing frames

`resize` maps a frame of any size onto a canvas.  `resizeWithOffset` corrects
the size of the picture by hand: the picture is fitted into a box that is wider
and taller than the canvas by the offset, and the box is centred on the canvas.
A negative correction leaves a black margin.  A positive one enlarges the
picture, keeps its top left corner and cuts off what falls past the right and
bottom edges.
-/

namespace Scanout

/-- A manual correction of the picture size. -/
structure Offset where
  /-- Columns added to the box of the picture. -/
  dx : Int := 0
  /-- Rows added to the box of the picture. -/
  dy : Int := 0
deriving DecidableEq, Repr, Inhabited

namespace Offset

/-- The offset changes nothing. -/
def isZero (o : Offset) : Bool := o.dx == 0 && o.dy == 0

/-- A side of the box: the canvas side and its correction, at least one. -/
def boxSide (side : Nat) (d : Int) : Nat := (max (side + d) 1).toNat

/-- The box the picture is fitted into.  Its sides keep their low 32 bits. -/
def box (o : Offset) (canvas : Size) : Size :=
  Size.wrap (boxSide canvas.width o.dx) (boxSide canvas.height o.dy)

/-- The margin before a box side on a canvas side; none if the box is the longer. -/
def margin (side : Nat) (d : Int) : Nat := (side - boxSide side d) / 2

end Offset

namespace Frame

/-- The frame scaled onto a canvas. -/
def resize (f : Frame) (filter : Resampler) (canvas : Size) (fit : Fit) : Outcome Frame := do
  if canvas.positive = false then report (.invalidDimensions canvas.width canvas.height)
  let plan ← Plan.make f.size canvas fit
  let length ← bufferLength canvas
  let bytes ← draw plan filter f.bytes f.size (Bytes.zeros ByteArray.empty length)
  ofBytes canvas bytes

/-- The frame scaled onto a canvas with a corrected size. -/
def resizeWithOffset (f : Frame) (filter : Resampler) (canvas : Size) (fit : Fit) (o : Offset) :
    Outcome Frame := do
  if canvas.positive = false then report (.invalidDimensions canvas.width canvas.height)
  if o.isZero then f.resize filter canvas fit
  else
    let inner ← f.resize filter (o.box canvas) fit
    let length ← bufferLength canvas
    let bytes ← blit inner.bytes inner.size (Bytes.zeros ByteArray.empty length) canvas
      (Offset.margin canvas.width o.dx) (Offset.margin canvas.height o.dy)
    ofBytes canvas bytes

end Frame

end Scanout
