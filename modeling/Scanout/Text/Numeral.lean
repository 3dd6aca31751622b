/-!
# Decimal numerals

`readNumeral` reads an unsigned decimal numeral that stays below a limit: an
optional plus sign and one or more ASCII digits.  Leading zeros are allowed, a
sign alone or an empty text is not a numeral.
-/

namespace Scanout.Text

/-- The character is an ASCII digit. -/
def isDigit (c : Char) : Bool := '0' ≤ c && c ≤ '9'

/-- The value of an ASCII digit. -/
def digitValue (c : Char) : Nat := c.toNat - '0'.toNat

/-- The value of a run of digits, read from the left. -/
def digitsValue (cs : List Char) : Nat := cs.foldl (fun n c => n * 10 + digitValue c) 0

/-- One or more ASCII digits, as a number. -/
def readDigits (cs : List Char) : Option Nat :=
  if cs ≠ [] ∧ cs.all isDigit then some (digitsValue cs) else none

/-- A numeral without its optional plus sign. -/
def dropPlus : List Char → List Char
  | '+' :: cs => cs
  | cs => cs

/-- An optional plus sign and digits whose value is below `limit`. -/
def readNumeral (limit : Nat) (cs : List Char) : Option Nat :=
  (readDigits (dropPlus cs)).filter (· < limit)

example : readNumeral 256 "+0255".toList = some 255 := by decide
example : readNumeral 256 "256".toList = none := by decide

end Scanout.Text
