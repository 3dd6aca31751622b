/-!
# Resampling filters

A filter decides how a pixel of a scaled picture is made from pixels of the
picture: the nearest one, or a weighted mean of those near it.  The weights of a
mean are the values of a kernel at the distance between the pixels; `support` is
the distance from which they are zero.
-/

namespace Scanout

/-- How pixels are resampled. -/
inductive Filter where
  /-- Windowed sinc over three pixels on either side: sharp. -/
  | lanczos3
  /-- Linear interpolation. -/
  | bilinear
  /-- The nearest pixel: fast. -/
  | nearest
deriving DecidableEq, Repr, Inhabited

namespace Filter

/-- The filters by the names that a command line gives them. -/
def names : List (String × Filter) :=
  [("lanczos3", lanczos3), ("bilinear", bilinear), ("nearest", nearest)]

def title : Filter → String
  | lanczos3 => "Lanczos3"
  | bilinear => "Bilinear"
  | nearest => "Nearest"

end Filter

/-- A weight function and the distance from which it is zero. -/
structure Kernel where
  weight : Float → Float
  /-- The distance from which the weight is zero. -/
  support : Float

namespace Kernel

/-- The number pi in double precision. -/
def pi : Float := 3.141592653589793

/-- The normalised cardinal sine. -/
def sinc (x : Float) : Float :=
  if x == 0.0 then 1.0
  else
    let y := x * pi
    y.sin / y

/-- A triangle of width two. -/
def bilinear : Kernel where
  weight x := if x.abs < 1.0 then 1.0 - x.abs else 0.0
  support := 1.0

/-- The cardinal sine under the main lobe of one three times as wide. -/
def lanczos3 : Kernel where
  weight x := if -3.0 <= x && x < 3.0 then sinc x * sinc (x / 3.0) else 0.0
  support := 3.0

end Kernel

end Scanout
