import Scanout.Files.Tree
import Scanout.Frame
import Scanout.Layout

/-!
# Framebuffers as pictures

What another screen shows can be read from its framebuffer device: rows of
pixels without gaps, in one of two pixel formats.  Bytes after the last pixel do
not matter.  A framebuffer that is too short, or all zero, has no picture to
give.

A device node has no length of its own, so a framebuffer of length zero is read
without a check.  It is mapped into memory, where there is only so much room,
and reading past the end of an empty file is a fault.

Two things here are not exact.  A length that no word can count makes the task
that reads die, and `outOfRange` stands for what is reported of a dead task,
which is text with a number that differs from run to run.  And how much room
there is in memory depends on what else is there: `memoryLimit` is what a
program may have in all, so lengths just below it may not be mapped either.
-/

namespace Scanout

/-- How a framebuffer stores a pixel. -/
inductive PixelFormat where
  /-- Red, green, blue. -/
  | rgb24
  /-- Blue, green, red and an unused byte. -/
  | bgra32
deriving DecidableEq, Repr, Inhabited

namespace PixelFormat

/-- Bytes of a pixel. -/
def bytesPerPixel : PixelFormat → Nat
  | rgb24 => 3
  | bgra32 => 4

/-- The formats by the names that a command line gives them. -/
def names : List (String × PixelFormat) := [("rgb24", rgb24), ("bgra32", bgra32)]

def title : PixelFormat → String
  | rgb24 => "Rgb24"
  | bgra32 => "Bgra32"

/-- The pixel with a number in a buffer. -/
def pixel (b : ByteArray) : PixelFormat → Nat → Pixel
  | rgb24, i => Bytes.pixelAt b (3 * i)
  | bgra32, i => ⟨Bytes.read b (4 * i + 2), Bytes.read b (4 * i + 1), Bytes.read b (4 * i)⟩

end PixelFormat

/-- The path of the first framebuffer device. -/
def Framebuffer.defaultPath : String := "/dev/fb0"

structure Framebuffer where
  path : String := Framebuffer.defaultPath
  size : Size
  /-- How it stores a pixel. -/
  format : PixelFormat
deriving DecidableEq, Repr

namespace Framebuffer

/-- The length that a directory reports. -/
def directoryLength : Nat := 4096

/-- What is reported of a framebuffer whose length no word can count. -/
def outOfRange : String := "framebuffer size out of range"

/-- The longest stretch of memory that a program can have, in bytes, and about
the longest that it gets. -/
def memoryLimit : Nat := 140737488351232

/-- The frame has no picture, for a reason. -/
def unavailable (fb : Framebuffer) (reason : String) : Outcome Frame :=
  report (.sourceUnavailable fb.path reason)

/-- The file has too few bytes. -/
def tooShort (fb : Framebuffer) (actual needed : Nat) : Outcome Frame :=
  fb.unavailable ("insufficient data: " ++ toString actual ++ " bytes, need " ++ toString needed)

/-- What becomes of reading so many bytes of a file that is empty. -/
def acquireEmpty (fb : Framebuffer) (needed : Nat) : Outcome Frame :=
  if Frame.bufferLimit ≤ needed then fb.unavailable "memory map length overflows isize"
  else if memoryLimit < needed then fb.unavailable "Cannot allocate memory (os error 12)"
  else fault

/-- The frame that a framebuffer shows. -/
def acquire (fb : Framebuffer) (t : FileTree) : Outcome Frame :=
  let needed := fb.size.area * fb.format.bytesPerPixel
  if fb.size.positive = false then report (.invalidDimensions fb.size.width fb.size.height)
  else if wordLimit ≤ needed then fb.unavailable outOfRange
  else
    match t.lookup fb.path with
    | .error e => fb.unavailable e.message
    | .ok .directory =>
        if directoryLength < needed then fb.tooShort directoryLength needed
        else fb.unavailable "No such device (os error 19)"
    | .ok (.file bytes _) =>
        if bytes.size = 0 then fb.acquireEmpty needed
        else if bytes.size < needed then fb.tooShort bytes.size needed
        else if Bytes.anyNonzero bytes needed then
          Frame.ofBytes fb.size
            (Frame.tabulateBytes fb.size fun x y => fb.format.pixel bytes (y * fb.size.width + x))
        else fb.unavailable "framebuffer is blank"

end Framebuffer

end Scanout
