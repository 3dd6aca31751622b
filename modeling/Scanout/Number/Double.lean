/-!
# Double precision

Scaling factors are computed in double precision.  A double is modelled by its
value, a rational number, and every operation on doubles is the exact operation
followed by `nearest`, which rounds to 53 significant bits and sends a tie to
the even neighbour.  All numbers here are zero or lie between `2 ^ -100` and
`2 ^ 100`, far from the ends of the exponent range, so neither infinity nor loss
of precision near zero occurs.
-/

namespace Scanout.Number

/-! ## Rounding to an integer -/

/-- The integer nearest to `q`, a tie going to the even one. -/
def roundHalfEven (q : Rat) : Int :=
  if 1 < 2 * (q - q.floor) ∨ (2 * (q - q.floor) = 1 ∧ q.floor % 2 = 1) then q.floor + 1 else q.floor

/-- The integer nearest to a number that is not negative, a tie going up. -/
def roundHalfUp (q : Rat) : Nat := (q + 1 / 2).floor.toNat

theorem roundHalfEven_intCast (k : Int) : roundHalfEven (k : Rat) = k := by
  have h : (k : Rat) - (k : Rat) = 0 := by grind
  rw [roundHalfEven, Rat.floor_intCast, h, if_neg]
  rintro (hc | ⟨hc, -⟩) <;> grind

/-! ## Rounding to a double -/

/-- The exponent of the largest power of two that a positive number reaches. -/
def floorLog2 (q : Rat) : Int :=
  let e : Int := (q.num.natAbs.log2 : Int) - (q.den.log2 : Int)
  if q < 2 ^ e then e - 1 else e

/-- The value of the last of the 53 significant bits of a positive number. -/
def lastBit (q : Rat) : Rat := 2 ^ (floorLog2 q - 52)

/-- The double nearest to a number that is not negative, a tie going to the even one. -/
def nearest (q : Rat) : Rat := if q ≤ 0 then 0 else roundHalfEven (q / lastBit q) * lastBit q

example : nearest (2 ^ 53 + 1) = 2 ^ 53 := by decide +kernel

/-- The double quotient of two counts. -/
def quotient (a b : Nat) : Rat := nearest (nearest a / nearest b)

/-- The double product of a count and a double. -/
def product (a : Nat) (q : Rat) : Rat := nearest (nearest a * q)

end Scanout.Number
