import Scanout.Frame

/-!
# Test patterns

A test pattern needs no picture: five coloured blocks move over a black ground,
one step at every tick.  Block `i` is centred `100 * i` columns and `50 * i`
rows after the tick, around the edges of the picture, and its colour moves with
it.  Where blocks overlap, the one with the highest number is seen.

A tick is a 64-bit word that is read with a sign.
-/

namespace Scanout

/-- A moving test pattern. -/
structure TestPattern where
  size : Size
  /-- The tick of the next frame. -/
  tick : Nat := 0
deriving DecidableEq, Repr

namespace TestPattern

/-- One block of a pattern. -/
structure Block where
  column : Int
  row : Int
  colour : Pixel
deriving DecidableEq, Repr

def blockCount : Nat := 5

/-- How far a block reaches from its centre. -/
def reach : Int := 30

/-- A 64-bit word read with a sign. -/
def signed (tick : Nat) : Int :=
  if tick < 9223372036854775808 then tick else (tick : Int) - wordLimit

/-- A signed 64-bit sum that does not leave its word. -/
def shift (t : Int) (k : Nat) : Outcome Int :=
  if t + k < 9223372036854775808 then .ok (t + k) else fault

/-- The low byte of a number. -/
def lowByte (n : Int) : UInt8 := UInt8.ofNat (n % 256).toNat

/-- Block `i` of the frame at a tick. -/
def block (size : Size) (t : Int) (i : Nat) : Outcome Block := do
  let column ← shift t (100 * i)
  let row ← shift t (50 * i)
  let bright ← shift t (150 * i)
  return ⟨column % (max size.width 1 : Nat), row % (max size.height 1 : Nat),
    ⟨lowByte row, lowByte column, lowByte bright⟩⟩

/-- The pixel lies within a block. -/
def Block.covers (b : Block) (x y : Nat) : Bool :=
  (x - b.column).natAbs ≤ reach.natAbs && (y - b.row).natAbs ≤ reach.natAbs

/-- The colour of a pixel: that of the first block of a list that covers it. -/
def colourAt (x y : Nat) : List Block → Pixel
  | [] => .black
  | b :: bs => if b.covers x y then b.colour else colourAt x y bs

/-- The frame of a pattern at a tick. -/
def render (size : Size) (tick : Nat) : Outcome Frame := do
  let blocks ← (List.range blockCount).mapM (block size (signed tick))
  let topFirst := blocks.reverse
  Frame.tabulate size fun x y => colourAt x y topFirst

/-- The pattern after a frame. -/
def next (p : TestPattern) : TestPattern := { p with tick := (p.tick + 1) % wordLimit }

def name (p : TestPattern) : String := "test-pattern " ++ p.size.text

end TestPattern

end Scanout
