import Scanout.Bytes
import Scanout.ChannelOrder
import Scanout.Size

/-!
# Frames

A `Frame` is a picture: rows of pixels, packed without gaps, three bytes for
every pixel.  Its type holds what every operation relies on: it has pixels, its
byte count is a 64-bit word, and it holds exactly that many bytes.  So a row
inside the picture always exists (`Frame.row?_eq_some`).

Frames are made from bytes (`Frame.ofBytes`), or from a function of the pixel's
position (`Frame.tabulate`).  `Frame.pixel` reads a pixel and is black outside
the buffer.
-/

namespace Scanout

/-! ## Pixels in a buffer -/

namespace Bytes

/-- Append `n` pixels, the one at position `i` being `p i`. -/
@[inline] def appendPixels (b : ByteArray) (n : Nat) (p : Nat → Pixel) : ByteArray :=
  Nat.fold n (fun i _ acc => match p i with | ⟨r, g, bl⟩ => ((acc.push r).push g).push bl) b

theorem toList_appendPixels (b : ByteArray) (n : Nat) (p : Nat → Pixel) :
    toList (appendPixels b n p) = toList b ++ (List.range n).flatMap fun i => (p i).bytes := by
  induction n with
  | zero => simp [appendPixels]
  | succ n ih =>
      simp only [appendPixels] at ih
      simp [appendPixels, Nat.fold_succ, ih, List.range_succ, Pixel.bytes]

@[simp] theorem size_appendPixels (b : ByteArray) (n : Nat) (p : Nat → Pixel) :
    (appendPixels b n p).size = b.size + 3 * n := by
  induction n with
  | zero => simp [appendPixels]
  | succ n ih =>
      simp only [appendPixels] at ih
      simp only [appendPixels, Nat.fold_succ, ByteArray.size_push, ih]
      omega

/-- The pixel whose first byte is at position `i`. -/
@[inline] def pixelAt (b : ByteArray) (i : Nat) : Pixel :=
  ⟨read b i, read b (i + 1), read b (i + 2)⟩

end Bytes

/-! ## Frames -/

/-- A picture of packed pixels, row after row. -/
structure Frame where
  size : Size
  /-- Red, green and blue of every pixel. -/
  bytes : ByteArray
  positive : size.positive = true
  length_lt : size.byteLength < wordLimit
  length_eq : bytes.size = size.byteLength
deriving DecidableEq

namespace Frame

/-- Pixels per row. -/
def width (f : Frame) : Nat := f.size.width

/-- Number of rows. -/
def height (f : Frame) : Nat := f.size.height

theorem bytes_size (f : Frame) : f.bytes.size = f.height * (3 * f.width) :=
  f.length_eq.trans f.size.byteLength_eq

/-- Two frames of one size with the same bytes are the same. -/
theorem ext' {f g : Frame} (hs : f.size = g.size) (hb : f.bytes = g.bytes) : f = g := by
  cases f; cases g
  simp_all

/-- The frame of a size with these bytes.  The size must have pixels, its byte
count must be a 64-bit word, and there must be exactly that many bytes. -/
def ofBytes (size : Size) (bytes : ByteArray) : Outcome Frame :=
  if hp : size.positive = true then
    if hw : size.byteLength < wordLimit then
      if hl : bytes.size = size.byteLength then .ok ⟨size, bytes, hp, hw, hl⟩
      else report (.config "frame" (size.text ++ " RGB frame needs " ++ toString size.byteLength
        ++ " bytes, got " ++ toString bytes.size))
    else fault
  else report (.invalidDimensions size.width size.height)

/-- No buffer has this many bytes. -/
def bufferLimit : Nat := 9223372036854775808

/-- The byte count of a buffer for a picture of a size. -/
def bufferLength (size : Size) : Outcome Nat :=
  if size.byteLength < bufferLimit then .ok size.byteLength else fault

/-- The bytes of a picture given by a function of column and row. -/
def tabulateBytes (size : Size) (p : Nat → Nat → Pixel) : ByteArray :=
  Bytes.appendRows ByteArray.empty size.height fun y acc =>
    Bytes.appendPixels acc size.width fun x => p x y

theorem size_tabulateBytes (size : Size) (p : Nat → Nat → Pixel) :
    (tabulateBytes size p).size = size.byteLength := by
  rw [tabulateBytes, Bytes.size_appendRows _ _ (3 * size.width) _ (by intros; simp),
    ByteArray.size_empty, Nat.zero_add, size.byteLength_eq]

/-- The frame whose pixel in column `x` and row `y` is `p x y`. -/
def tabulate (size : Size) (p : Nat → Nat → Pixel) : Outcome Frame :=
  if size.positive = true then
    if size.byteLength < bufferLimit then ofBytes size (tabulateBytes size p) else fault
  else report (.invalidDimensions size.width size.height)

/-- A frame of one colour. -/
def filled (size : Size) (p : Pixel) : Outcome Frame := tabulate size fun _ _ => p

/-! ## Reading a frame -/

/-- The bytes of row `y`, if the frame has it. -/
def row? (f : Frame) (y : Nat) : Option ByteArray :=
  Bytes.slice? f.bytes (y * (3 * f.width)) (3 * f.width)

/-- The pixel `x` places after the start of row `y`, if the buffer has it.  A
column past the end of a row runs on into the next. -/
def pixel? (f : Frame) (x y : Nat) : Option Pixel :=
  let i := (y * f.width + x) * 3
  if i + 2 < f.bytes.size then some (Bytes.pixelAt f.bytes i) else none

/-- The pixel in column `x` and row `y`, black outside the buffer. -/
def pixel (f : Frame) (x y : Nat) : Pixel := Bytes.pixelAt f.bytes ((y * f.width + x) * 3)

/-- Every row of the picture exists and holds its pixels. -/
theorem row?_eq_some (f : Frame) {y : Nat} (h : y < f.height) :
    f.row? y = some (f.bytes.extract (y * (3 * f.width)) (y * (3 * f.width) + 3 * f.width)) := by
  have hrow : y * (3 * f.width) + 3 * f.width ≤ f.bytes.size := by
    rw [f.length_eq]
    exact f.size.row_le h (Nat.le_refl _)
  rw [row?, Bytes.slice?, if_pos hrow]

theorem ofBytes_self (f : Frame) : ofBytes f.size f.bytes = .ok f := by
  simp [ofBytes, f.positive, f.length_lt, f.length_eq]

end Frame

end Scanout
