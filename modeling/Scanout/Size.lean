import Scanout.Error
import Scanout.Text.Blank
import Scanout.Text.Numeral

/-!
# Sizes

A `Size` is a width and a height in pixels.  A side is a 32-bit count, and the
bound travels with the value, so no operation has to assume it.  Zero sides are
allowed here: pictures and layouts reject them where they are made
(`Size.positive`).

A size is written `WxH`.  `Size.parse` reads that form with white space around
either side and `x` in any case.
-/

namespace Scanout

/-- A width and a height in pixels, each a 32-bit count, which is below 4294967296. -/
structure Size where
  /-- Pixels per row. -/
  width : Nat
  /-- Number of rows. -/
  height : Nat
  width_lt : width < 4294967296 := by decide
  height_lt : height < 4294967296 := by decide
deriving DecidableEq, Repr

namespace Size

instance : Inhabited Size := ⟨⟨0, 0, by decide, by decide⟩⟩

/-- The size of a small screen. -/
def vga : Size := { width := 640, height := 480 }

/-- The size of a wide small screen. -/
def wide : Size := { width := 720, height := 480 }

/-- The size of a large screen. -/
def svga : Size := { width := 800, height := 600 }

/-- The size with these sides, if both are 32-bit counts. -/
def ofNat? (width height : Nat) : Option Size :=
  if hw : width < 4294967296 then
    if hh : height < 4294967296 then some ⟨width, height, hw, hh⟩ else none
  else none

/-- The size whose sides are the low 32 bits of these numbers. -/
def wrap (width height : Nat) : Size :=
  ⟨width % 4294967296, height % 4294967296, Nat.mod_lt _ (by decide), Nat.mod_lt _ (by decide)⟩

theorem ext' {s t : Size} (hw : s.width = t.width) (hh : s.height = t.height) : s = t := by
  cases s; cases t; simp_all

theorem wrap_self (s : Size) : wrap s.width s.height = s :=
  ext' (Nat.mod_eq_of_lt s.width_lt) (Nat.mod_eq_of_lt s.height_lt)

/-- Number of pixels. -/
def area (s : Size) : Nat := s.width * s.height

/-- Number of bytes of a packed picture: three for every pixel. -/
def byteLength (s : Size) : Nat := 3 * s.area

/-- A packed picture is its rows. -/
theorem byteLength_eq (s : Size) : s.byteLength = s.height * (3 * s.width) := by
  rw [byteLength, area, Nat.mul_comm s.width, Nat.mul_left_comm]

/-- No row of a packed picture runs past its end. -/
theorem row_le (s : Size) {y j : Nat} (hy : y < s.height) (hj : j ≤ 3 * s.width) :
    y * (3 * s.width) + j ≤ s.byteLength := by
  calc y * (3 * s.width) + j
      ≤ y * (3 * s.width) + 3 * s.width := Nat.add_le_add_left hj _
    _ = (y + 1) * (3 * s.width) := (Nat.succ_mul ..).symm
    _ ≤ s.height * (3 * s.width) := Nat.mul_le_mul_right _ hy
    _ = s.byteLength := s.byteLength_eq.symm

/-- Both sides are positive. -/
def positive (s : Size) : Bool := s.width != 0 && s.height != 0

theorem positive_iff (s : Size) : s.positive = true ↔ 0 < s.width ∧ 0 < s.height := by
  simp [positive]
  omega

/-- Reject a size without pixels. -/
def check (s : Size) : Except Error Unit :=
  if s.positive then .ok () else .error (.invalidDimensions s.width s.height)

/-- A size is written `WxH`. -/
def text (s : Size) : String := toString s.width ++ "x" ++ toString s.height

/-! ## Reading a size -/

/-- The character that stands between the two sides. -/
def isCross (c : Char) : Bool := c == 'x' || c == 'X'

/-- A side: a 32-bit numeral with white space around it. -/
def readSide (cs : List Char) : Option Nat := Text.readNumeral 4294967296 (Text.trim cs)

/-- The two sides of a text that is split at its first `x`. -/
def readSides (cs : List Char) : Option (Nat × Nat) :=
  match (Text.trim cs).span (! isCross ·) with
  | (_, []) => none
  | (left, _ :: right) =>
      match readSide left, readSide right with
      | some width, some height => some (width, height)
      | _, _ => none

/-- Read a size with positive sides. -/
def parse (s : String) : Except Error Size :=
  match (readSides s.toList).bind fun (width, height) => ofNat? width height with
  | none => .error (.config "resolution" ("expected WxH, got '" ++ s ++ "'"))
  | some size =>
      match size.check with
      | .ok () => .ok size
      | .error e => .error e

example : (parse " 800 X\t+0600 ").map (fun s => (s.width, s.height)) = .ok (800, 600) := by
  decide +kernel

end Size

end Scanout
