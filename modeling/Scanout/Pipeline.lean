import Scanout.Compositor
import Scanout.Encoded

/-!
# Pipelines

A `Pipeline` takes a picture of any size to the bytes that the device reads: it
composes the picture onto the canvas of a layout, with a manual correction of
its size, and encodes the result.  Its layout has passed the check.
-/

namespace Scanout

/-- The way from a picture to an encoded frame. -/
structure Pipeline where
  layout : Layout
  /-- How pixels are resampled. -/
  filter : Resampler := .lanczos3
  /-- The correction of the picture size. -/
  offset : Offset := ⟨0, 0⟩
  layout_ok : layout.check = .ok ()

namespace Pipeline

/-- The pipeline of a layout that passes the check. -/
def make (layout : Layout) (filter : Resampler) (offset : Offset) : Except Error Pipeline :=
  match h : layout.check with
  | .ok () => .ok ⟨layout, filter, offset, h⟩
  | .error e => .error e

/-- The encoded frame of a picture. -/
def render (p : Pipeline) (f : Frame) : Outcome Encoded := do
  encode (← f.resizeWithOffset p.filter p.layout.toSize p.layout.fit p.offset) p.layout

end Pipeline

end Scanout
