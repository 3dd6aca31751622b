import Scanout.Frame
import Scanout.Text.Numeral

/-!
# Decoding pictures

A `Decoder` makes a picture of the bytes of a picture file.  There are many
formats, and which of them a decoder reads is its own affair: what follows from
decoding holds of every one.  All that is known of a decoded picture stands in
its type, `Raster`.  It has exactly the bytes that its size asks for, and a
buffer holds them.

`Netpbm.decoder` is the one that is run.  It reads binary netpbm files: `P6` for
colour or `P5` for grey, then width, height and the largest value, which must be
255, each after white space, then one white space character and the bytes of the
pixels.  Grey is as much red as green and blue.
-/

namespace Scanout

/-! ## Decoders -/

/-- A decoded picture: three bytes for every pixel, row after row.  It may have
no pixels. -/
structure Raster where
  size : Size
  bytes : ByteArray
  length_eq : bytes.size = size.byteLength
  length_lt : size.byteLength < Frame.bufferLimit

/-- The picture in some bytes, or why there is none. -/
abbrev Decoder := ByteArray → Except String Raster

/-! ## Binary netpbm files -/

namespace Netpbm

/-- Why a picture could not be decoded. -/
inductive DecodeError where
  /-- The bytes are in no known format. -/
  | unknownFormat
  /-- The header makes no sense. -/
  | badHeader
  /-- The pixels would take too much memory. -/
  | tooLarge
  /-- There are fewer pixels than the header says. -/
  | tooShort
deriving DecidableEq, Repr

/-- The text of a decoding error. -/
def DecodeError.message : DecodeError → String
  | unknownFormat => "The image format could not be determined"
  | badHeader => "Format error decoding Pnm: the header is malformed"
  | tooLarge => "Memory limit exceeded"
  | tooShort => "failed to fill whole buffer"

/-- The byte separates the parts of a header. -/
def isSpace (b : UInt8) : Bool := b == 32 || (9 ≤ b && b ≤ 13)

/-- The byte is an ASCII digit. -/
def isDigit (b : UInt8) : Bool := 48 ≤ b && b ≤ 57

/-- The position after white space.  The first argument bounds its length. -/
def skipSpace (b : ByteArray) : Nat → Nat → Nat
  | 0, i => i
  | n + 1, i => if i < b.size && isSpace (Bytes.read b i) then skipSpace b n (i + 1) else i

/-- The value of the digits at a position, and the position after them.  The
first argument bounds their number. -/
def readDigits (b : ByteArray) : Nat → Nat → Nat → Nat × Nat
  | 0, i, value => (value, i)
  | n + 1, i, value =>
      if i < b.size && isDigit (Bytes.read b i) then
        readDigits b n (i + 1) (value * 10 + (Bytes.read b i).toNat - 48)
      else (value, i)

/-- A number after white space, and the position after it. -/
def readNumber (b : ByteArray) (i : Nat) : Option (Nat × Nat) :=
  let start := skipSpace b b.size i
  let (value, stop) := readDigits b 12 start 0
  if i < start ∧ start < stop then some (value, stop) else none

/-- The size in a header, and the position of the first pixel. -/
def readHeader (b : ByteArray) : Option (Size × Nat) := do
  let (width, i) ← readNumber b 2
  let (height, i) ← readNumber b i
  let (largest, i) ← readNumber b i
  let size ← Size.ofNat? width height
  if largest = 255 && i < b.size && isSpace (Bytes.read b i) then some (size, i + 1) else none

/-- The pixel with a number, of a colour picture or a grey one, whose pixels
start at a position. -/
def pixel (b : ByteArray) (colour : Bool) (start i : Nat) : Pixel :=
  if colour then Bytes.pixelAt b (start + 3 * i)
  else
    let grey := Bytes.read b (start + i)
    ⟨grey, grey, grey⟩

/-- The most bytes that the pixels of a picture may take. -/
def memoryLimit : Nat := 512 * 1024 * 1024

/-- A buffer holds what the pixels of a file become, be they coloured or grey. -/
theorem byteLength_lt_of_length_le {size : Size} {colour : Bool}
    (h : (if colour then size.byteLength else size.area) ≤ memoryLimit) :
    size.byteLength < Frame.bufferLimit := by
  simp only [memoryLimit, Size.byteLength, Frame.bufferLimit] at h ⊢
  split at h
  · omega
  · omega

/-- The pixels of a size in some bytes, from a position on. -/
def raster (b : ByteArray) (size : Size) (colour : Bool) (start : Nat)
    (h : size.byteLength < Frame.bufferLimit) : Raster where
  size := size
  bytes := Frame.tabulateBytes size fun x y => pixel b colour start (y * size.width + x)
  length_eq := Frame.size_tabulateBytes size _
  length_lt := h

/-- The picture in some bytes. -/
def decode (b : ByteArray) : Except DecodeError Raster :=
  let kind := Bytes.read b 1
  if Bytes.read b 0 != 80 || (kind != 53 && kind != 54) then .error .unknownFormat
  else
    match readHeader b with
    | none => .error .badHeader
    | some (size, start) =>
        let colour := kind == 54
        let length := if colour then size.byteLength else size.area
        if h : memoryLimit < length then .error .tooLarge
        else if start + length ≤ b.size then
          .ok (raster b size colour start (byteLength_lt_of_length_le (Nat.not_lt.mp h)))
        else .error .tooShort

/-- The decoder that reads binary netpbm files and nothing else. -/
def decoder : Decoder := fun b =>
  match decode b with
  | .ok r => .ok r
  | .error e => .error e.message

end Netpbm

end Scanout
