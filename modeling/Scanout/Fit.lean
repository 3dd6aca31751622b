import Scanout.Text.Blank

/-!
# Fits

A fit says how a picture of one size covers a canvas of another: stretched over
all of it, or scaled uniformly, centred and framed in black.
-/

namespace Scanout

/-- How a picture is mapped onto a canvas of another size. -/
inductive Fit where
  /-- Stretch over the whole canvas. -/
  | exact
  /-- Keep the aspect ratio and leave a black border. -/
  | aspect
deriving DecidableEq, Repr, Inhabited

namespace Fit

/-- Every fit. -/
def all : List Fit := [exact, aspect]

def name : Fit → String
  | exact => "exact"
  | aspect => "aspect"

/-- The spellings a record may use for a fit, the written one first. -/
def spellings : Fit → List String
  | exact => ["exact", "Exact-fit", "ExactFit", "exact-fit"]
  | aspect => ["aspect", "Aspect-fit", "AspectFit", "aspect-fit"]

/-- The fit a record names. -/
def ofSpelling? (s : String) : Option Fit := all.find? fun f => f.spellings.contains s

end Fit

end Scanout
