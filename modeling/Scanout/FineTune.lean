import Scanout.Layout
import Scanout.Number.Double

/-!
# Fine tuning

A layout that nearly works has neighbours that may work better.  `fineTune`
lists the neighbours of each base layout: its stride scaled by five factors, its
width and its height each moved by up to a hundred pixels.  Layouts that fail
the check are left out, and each is listed once.

A scaled stride is computed in double precision and cut to a whole number.  A
moved side is at least a hundred.
-/

namespace Scanout.FineTune

/-- The scaling of a stride, in percent. -/
def stridePercents : List Nat := [80, 90, 100, 110, 120]

/-- The movements of a side, in pixels. -/
def sideOffsets : List Int := [-100, 0, 100]

/-- The least side after a movement. -/
def minimumSide : Nat := 100

/-- The double nearest to a percentage. -/
def stridePercent (percent : Nat) : Rat := Number.nearest (percent / 100)

/-- A stride scaled by a percentage, cut to a whole number and to a 64-bit word. -/
def scaledStride (stride percent : Nat) : Nat :=
  min (Number.product stride (stridePercent percent)).floor.toNat (wordLimit - 1)

/-- A side moved by an offset.  Only the low 32 bits of the result are kept, by
`Size.wrap`. -/
def movedSide (side : Nat) (d : Int) : Nat := (max (side + d) minimumSide).toNat

/-- A base with its stride scaled and its sides moved. -/
def neighbour (base : Layout) (percent : Nat) (dx dy : Int) : Layout where
  toSize := Size.wrap (movedSide base.width dx) (movedSide base.height dy)
  stride := scaledStride base.stride percent
  order := base.order
  fit := base.fit

/-- Add a layout to a list, unless it fails the check or is listed already. -/
def gather (listed : List Layout) (l : Layout) : List Layout :=
  if l.valid ∧ l ∉ listed then listed ++ [l] else listed

/-- Add every neighbour of a base to a list, nested by stride, width and height. -/
def gatherNeighbours (listed : List Layout) (base : Layout) : List Layout :=
  stridePercents.foldl (fun listed percent =>
    sideOffsets.foldl (fun listed dx =>
      sideOffsets.foldl (fun listed dy =>
        gather listed (neighbour base percent dx dy)) listed) listed) listed

/-- The bases of a device that was never calibrated. -/
def defaultBases : List Layout :=
  [⟨.svga, 2560, .bgr, .exact⟩, ⟨.vga, 2048, .bgr, .exact⟩, ⟨.svga, 2560, .rgb, .exact⟩,
    ⟨.svga, 2816, .bgr, .exact⟩]

end Scanout.FineTune

namespace Scanout

/-- The valid neighbours of every base, each once. -/
def fineTune (bases : List Layout) : List Layout := bases.foldl FineTune.gatherNeighbours []

end Scanout
