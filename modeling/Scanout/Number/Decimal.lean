import Scanout.Number.Double
import Scanout.Text.Blank
import Scanout.Text.Numeral

/-!
# Decimal texts of doubles

A `Binary64` is a double with its sign and its special values.  `Binary64.read?`
reads a decimal text and rounds it to the nearest double.  `Binary64.text`
writes a double without an exponent, with the fewest significant digits that
read back as the same double, and of those the digits nearest to its value.
-/

namespace Scanout.Number

/-- A double of any kind. -/
inductive Binary64 where
  /-- A number: its sign and its magnitude. -/
  | finite (negative : Bool) (magnitude : Rat)
  /-- A number too large for the exponent range. -/
  | infinite (negative : Bool)
  /-- No number at all. -/
  | undefined
deriving DecidableEq, Repr

/-! ## Rounding -/

/-- The least positive double. -/
def leastPositive : Rat := 2 ^ (-1074 : Int)

/-- The least power of two that is too large. -/
def magnitudeLimit : Rat := 2 ^ (1024 : Int)

/-- The magnitude of the double nearest to a positive number, or none if that is
too large. -/
def magnitude? (q : Rat) : Option Rat :=
  let unit := if lastBit q < leastPositive then leastPositive else lastBit q
  let r := roundHalfEven (q / unit) * unit
  if magnitudeLimit ≤ r then none else some r

/-- The number of decimal digits of a positive number. -/
def digitCount (n : Nat) : Nat := (Nat.toDigits 10 n).length

namespace Binary64

/-- The double nearest to `n * 10 ^ e`.  Powers of ten that are surely too large
or too small are not computed. -/
def ofDecimal (negative : Bool) (n : Nat) (e : Int) : Binary64 :=
  if n = 0 ∨ digitCount n + e < -330 then .finite negative 0
  else if 310 < digitCount n + e then .infinite negative
  else
    match magnitude? (n * 10 ^ e) with
    | some m => .finite negative m
    | none => .infinite negative

/-! ## Reading -/

/-- A sign and what follows it.  The sign may be absent. -/
def splitSign : List Char → Bool × List Char
  | '-' :: cs => (true, cs)
  | '+' :: cs => (false, cs)
  | cs => (false, cs)

/-- The character starts the exponent of a numeral. -/
def startsExponent (c : Char) : Bool := c == 'e' || c == 'E'

/-- A whole number with an optional sign. -/
def readInteger (cs : List Char) : Option Int :=
  let (negative, ds) := splitSign cs
  (Text.readDigits ds).map fun n => if negative then -(n : Int) else n

/-- The exponent at the end of a numeral: none is zero. -/
def readExponent : List Char → Option Int
  | [] => some 0
  | _ :: cs => readInteger cs

/-- A numeral without its sign: digits with an optional point among them, and an
optional exponent. -/
def readMagnitude (negative : Bool) (cs : List Char) : Option Binary64 := do
  let exponent ← readExponent (cs.dropWhile (! startsExponent ·))
  let digits := cs.takeWhile (! startsExponent ·)
  let whole := digits.takeWhile (· != '.')
  let places := (digits.dropWhile (· != '.')).drop 1
  let n ← Text.readDigits (whole ++ places)
  return ofDecimal negative n (exponent - places.length)

/-- The double that a text names. -/
def read? (s : String) : Option Binary64 :=
  let (negative, cs) := splitSign s.toList
  if Text.sameLetters cs "nan".toList then some .undefined
  else if Text.sameLetters cs "inf".toList || Text.sameLetters cs "infinity".toList then
    some (.infinite negative)
  else readMagnitude negative cs

/-! ## Writing -/

/-- The exponent of the largest power of ten that a positive number reaches. -/
def floorLog10 (q : Rat) : Int :=
  let e : Int := (digitCount q.num.natAbs : Int) - (digitCount q.den : Int)
  if q < 10 ^ e then e - 1 else e

/-- A decimal with a number of digits that reads back as a given positive
double, the nearer if there are two, and the larger if both are as near.  The
decimal is given by its digits and the power of ten of the last of them. -/
def withDigits? (m : Rat) (digits : Nat) : Option (Nat × Int) :=
  let e := floorLog10 m + 1 - digits
  let below := (m / 10 ^ e).floor.toNat
  let reads (n : Nat) : Bool := magnitude? (n * 10 ^ e) == some m
  let above := if below + 1 = Nat.pow 10 digits then (1, e + digits) else (below + 1, e)
  match reads below, reads (below + 1) with
  | true, true => if 2 * (m / 10 ^ e - below) < 1 then some (below, e) else some above
  | true, false => some (below, e)
  | false, true => some above
  | false, false => none

/-- Digits that are always enough to tell two doubles apart. -/
def enoughDigits : Nat := 17

/-- The decimal with the fewest digits that reads back as a given positive double. -/
def shortest (m : Rat) : Nat × Int :=
  ((List.range enoughDigits).findSome? fun k => withDigits? m (k + 1)).getD (0, 0)

/-- A decimal without an exponent. -/
def positional (n : Nat) (e : Int) : String :=
  let digits := Nat.toDigits 10 n
  let places := (-e).toNat
  let padded :=
    List.replicate (places + 1 - digits.length) '0' ++ digits ++ List.replicate e.toNat '0'
  if places = 0 then String.ofList padded
  else
    String.ofList (padded.take (padded.length - places)) ++ "."
      ++ String.ofList (padded.drop (padded.length - places))

def text : Binary64 → String
  | undefined => "NaN"
  | infinite negative => (if negative then "-" else "") ++ "inf"
  | finite negative m =>
      (if negative then "-" else "")
        ++ (if m = 0 then "0" else positional (shortest m).1 (shortest m).2)

example : (read? "-.25e1").map text = some "-2.5" := by decide +kernel
example : (read? "18446744073709551616").map text = some "18446744073709552000" := by decide +kernel

end Binary64

end Scanout.Number
