import Scanout.Error
import Scanout.Fit
import Scanout.Number.Double
import Scanout.Size

/-!
# Scaling plans

A `Plan` says where on a canvas a picture lands.  An exact fit covers the whole
canvas.  An aspect fit scales both sides by one factor, the largest that keeps
the picture on the canvas, rounds the sides to whole pixels and centres the
result; where it does not cover the canvas, the plan names the region that it
does cover.

A plan carries the proof that its region lies on its canvas, so whoever draws by
it need not look.

The factor and the sides are computed in double precision
(`Scanout.Number.Double`), so a side can be one pixel off the exact ratio.
-/

namespace Scanout

/-- A rectangle on a canvas. -/
structure Region where
  left : Nat
  /-- Rows above it. -/
  top : Nat
  size : Size
deriving DecidableEq, Repr

/-- The region lies on the canvas. -/
structure Region.On (r : Region) (canvas : Size) : Prop where
  width_le : r.left + r.size.width ≤ canvas.width
  height_le : r.top + r.size.height ≤ canvas.height

instance (r : Region) (canvas : Size) : Decidable (r.On canvas) :=
  decidable_of_iff (_ ∧ _) ⟨fun h => ⟨h.1, h.2⟩, fun h => ⟨h.width_le, h.height_le⟩⟩

/-- Where a picture of one size lands on a canvas of another. -/
@[ext]
structure Plan where
  /-- The size of the picture. -/
  input : Size
  canvas : Size
  /-- The region that receives the picture, if it does not cover the canvas. -/
  region : Option Region
  region_on : ∀ r ∈ region, r.On canvas
deriving DecidableEq, Repr

namespace Plan

/-- The picture covers the canvas. -/
def whole (input canvas : Size) : Plan := ⟨input, canvas, none, nofun⟩

/-- The size the picture is scaled to. -/
def content (p : Plan) : Size :=
  match p.region with
  | some r => r.size
  | none => p.canvas

/-- The picture covers the canvas pixel by pixel. -/
def isIdentity (p : Plan) : Bool := p.region.isNone && p.input == p.canvas

/-! ## Fitting a picture into a box -/

/-- The factor that a side of the picture may be scaled by.  A side without
pixels sets no limit. -/
def limit (side box : Nat) : Option Rat :=
  if side = 0 then none else some (Number.quotient box side)

/-- The largest factor within both limits. -/
def factor (input box : Size) : Option Rat :=
  match limit input.width box.width, limit input.height box.height with
  | some a, some b => some (if b < a then b else a)
  | some a, none => some a
  | none, b => b

/-- A side scaled by a factor and rounded to whole pixels, at least one and at
most the box. -/
def scaledSide (side box : Nat) (s : Option Rat) : Nat :=
  max 1 (min (match s with | some s => Number.roundHalfUp (Number.product side s) | none => 0) box)

theorem scaledSide_lt {side box n : Nat} {s : Option Rat} (h1 : 1 < n) (hb : box < n) :
    scaledSide side box s < n := by
  simp only [scaledSide]
  omega

theorem scaledSide_le {side box : Nat} (s : Option Rat) (h : 0 < box) :
    scaledSide side box s ≤ box := by
  simp only [scaledSide]
  omega

/-- The size of a picture scaled by one factor into a box. -/
def fitWithin (input box : Size) : Size where
  width := scaledSide input.width box.width (factor input box)
  height := scaledSide input.height box.height (factor input box)
  width_lt := scaledSide_lt (by decide) box.width_lt
  height_lt := scaledSide_lt (by decide) box.height_lt

/-- The region of a picture of a size centred on a canvas, if it does not cover
the canvas. -/
def centred (size canvas : Size) : Option Region :=
  if size = canvas then none
  else some ⟨(canvas.width - size.width) / 2, (canvas.height - size.height) / 2, size⟩

theorem on_of_centred {size canvas : Size} (hw : size.width ≤ canvas.width)
    (hh : size.height ≤ canvas.height) : ∀ r ∈ centred size canvas, r.On canvas := by
  intro r hr
  rw [Option.mem_def, centred] at hr
  split at hr
  · cases hr
  · cases hr
    constructor
    · dsimp only
      omega
    · dsimp only
      omega

/-- The picture is scaled by one factor and centred. -/
def centredFit (input canvas : Size) (h : canvas.positive = true) : Plan where
  input := input
  canvas := canvas
  region := centred (fitWithin input canvas) canvas
  region_on :=
    have ⟨hw, hh⟩ := canvas.positive_iff.mp h
    on_of_centred (scaledSide_le _ hw) (scaledSide_le _ hh)

/-- The plan that puts a picture on a canvas.  An aspect fit needs a canvas with
pixels. -/
def make (input canvas : Size) : Fit → Outcome Plan
  | .exact => .ok (whole input canvas)
  | .aspect => if h : canvas.positive = true then .ok (centredFit input canvas h) else fault

example : (make { width := 1920, height := 1080 } .svga .aspect).map region
    = .ok (some ⟨0, 75, { width := 800, height := 450 }⟩) := by
  decide +kernel
example : (make { width := 80, height := 60 } .svga .aspect).map region = .ok none := by
  decide +kernel

end Plan

end Scanout
