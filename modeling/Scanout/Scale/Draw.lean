import Scanout.Scale.Plan
import Scanout.Scale.Resample

/-!
# Drawing

`draw` scales a picture and places it on a canvas as a plan says.  Where the
plan names a region, the rest of the canvas becomes black.  The canvas is the
start of a destination buffer, which may be longer; bytes past the canvas stay
as they are.  A `Drawing` is what comes of it: how it ends and the destination
afterwards.

`blit` copies a picture onto a canvas at a position, without scaling.  What
falls past the right or the bottom edge is cut off.
-/

namespace Scanout

/-! ## Drawing a scaled picture -/

/-- The bytes of a black canvas with packed pixels in a region. -/
def framed (canvas : Size) (r : Region) (content : ByteArray) : ByteArray :=
  let run := 3 * r.size.width
  Bytes.appendRows ByteArray.empty canvas.height fun y acc =>
    if r.top ≤ y ∧ y < r.top + r.size.height then
      let row := content.extract ((y - r.top) * run) ((y - r.top) * run + run)
      Bytes.zeros (Bytes.zeros acc (3 * r.left) ++ row) (3 * (canvas.width - r.left - r.size.width))
    else Bytes.zeros acc (3 * canvas.width)

/-- What a plan puts on its canvas, or nothing where the canvas is left as it
is.  A picture without pixels leaves a canvas alone, but for a region the canvas
is cleared first. -/
def Plan.picture? (p : Plan) (f : Resampler) (src : ByteArray) (size : Size) : Option ByteArray :=
  let empty := size.area == 0 || p.content.area == 0
  match p.region with
  | none => if empty then none else some (f.resample src size p.canvas)
  | some r =>
      if empty then some (Bytes.zeros ByteArray.empty p.canvas.byteLength)
      else some (framed p.canvas r (f.resample src size r.size))

/-- Drawing needs a source with the bytes that its size asks for, and a
destination that holds the canvas. -/
def Plan.checkBuffers (p : Plan) (src : ByteArray) (size : Size) (dst : ByteArray) :
    Outcome Unit := do
  let expected ← word size.byteLength
  if src.size ≠ expected then report (.scale (.sourceLength expected src.size))
  let needed ← word p.canvas.byteLength
  if dst.size < needed then report (.scale (.bufferTooSmall needed dst.size))

/-- The destination after a picture was drawn onto the canvas at its start. -/
def Plan.drawn (p : Plan) (f : Resampler) (src : ByteArray) (size : Size) (dst : ByteArray) :
    ByteArray :=
  if p.isIdentity ∧ size = p.input then src ++ dst.extract p.canvas.byteLength dst.size
  else
    match p.picture? f src size with
    | none => dst
    | some canvas => canvas ++ dst.extract p.canvas.byteLength dst.size

/-- What comes of drawing. -/
structure Drawing where
  result : Outcome Unit
  /-- The whole destination, however drawing ends. -/
  destination : ByteArray

/-- Draw a packed picture of a size onto the canvas at the start of a
destination.  What is refused is refused before anything is drawn. -/
def Plan.drawing (p : Plan) (f : Resampler) (src : ByteArray) (size : Size) (dst : ByteArray) :
    Drawing :=
  match p.checkBuffers src size dst with
  | .ok () => ⟨.ok (), p.drawn f src size dst⟩
  | .error e => ⟨.error e, dst⟩

/-- The destination with a picture drawn onto it, if it could be drawn. -/
def draw (p : Plan) (f : Resampler) (src : ByteArray) (size : Size) (dst : ByteArray) :
    Outcome ByteArray :=
  let d := p.drawing f src size dst
  d.result.map fun _ => d.destination

/-! ## Copying a picture -/

/-- Copy `n` rows, row `r` and those after it, of packed pixels onto a canvas.
`run` is the number of bytes to copy of each row. -/
def blitRows (src : ByteArray) (srcPitch dstPitch first run : Nat) :
    (n r : Nat) → ByteArray → Outcome ByteArray
  | 0, _, canvas => .ok canvas
  | n + 1, r, canvas =>
      match (Bytes.slice? src (r * srcPitch) run).bind
          (Bytes.overwrite? canvas (first + r * dstPitch)) with
      | none => fault
      | some canvas => blitRows src srcPitch dstPitch first run n (r + 1) canvas

/-- Copy a packed picture onto a packed canvas, its top left pixel at column `x`
and row `y`. -/
def blit (src : ByteArray) (size : Size) (canvas : ByteArray) (canvasSize : Size) (x y : Nat) :
    Outcome ByteArray :=
  if canvasSize.width ≤ x ∨ canvasSize.height ≤ y then .ok canvas
  else
    blitRows src (3 * size.width) (3 * canvasSize.width) (y * (3 * canvasSize.width) + 3 * x)
      (3 * min size.width (canvasSize.width - x)) (min size.height (canvasSize.height - y)) 0 canvas

end Scanout
