import Scanout.Proofs.Margins

/-!
# What copying a picture changes

A picture can be copied to every position of a canvas, also to one where no
pixel of it shows (`blit_eq_ok`): the rows that are copied are those that both
have, and of each row as much as both have, so no byte is read past the end of
the picture or written past the end of the canvas (`rows_inside`).

Afterwards a pixel of the canvas is the pixel of the picture that lies on it, or
its own where none does (`pixelIn_blit`).  Every byte of a packed canvas belongs
to a pixel (`Size.exists_place`), so this says of each byte whether it has
changed (`read_blit_of_uncovered`).
-/

namespace Scanout

open Bytes

/-! ## Bytes and pixels -/

/-- Every byte of a packed picture is that of a channel of a pixel. -/
theorem Size.exists_place {s : Size} {i : Nat} (hi : i < s.byteLength) :
    ∃ x < s.width, ∃ y < s.height, ∃ c < 3, i = (y * s.width + x) * 3 + c := by
  have hplace : i / 3 < s.width * s.height := Nat.div_lt_of_lt_mul hi
  have hwidth : 0 < s.width := Nat.pos_of_mul_pos_right (Nat.zero_lt_of_lt hplace)
  refine ⟨i / 3 % s.width, Nat.mod_lt _ hwidth, i / 3 / s.width, Nat.div_lt_of_lt_mul hplace, i % 3,
    Nat.mod_lt i (by decide), ?_⟩
  rw [Nat.div_add_mod', Nat.div_add_mod']

theorem Bytes.read_of_pixelAt_eq {a b : ByteArray} {i j c : Nat} (h : pixelAt a i = pixelAt b j)
    (hc : c < 3) :
    read a (i + c) = read b (j + c) := by
  obtain ⟨hred, hgreen, hblue⟩ := Pixel.mk.inj h
  match c, hc with
  | 0, _ => exact hred
  | 1, _ => exact hgreen
  | 2, _ => exact hblue

/-! ## Copied pictures -/

variable {src canvas out : ByteArray} {size canvasSize : Size} {x y : Nat}

/-- A byte that belongs to no pixel under the picture stays as it was. -/
theorem read_blit_of_uncovered (h : blit src size canvas canvasSize x y = .ok out)
    (hc : canvas.size = canvasSize.byteLength) (hout : out.size = canvas.size) {i : Nat}
    (hi : ∀ cx < canvasSize.width, ∀ cy, (⟨x, y, size⟩ : Region).Covers cx cy →
      ∀ c < 3, i ≠ (cy * canvasSize.width + cx) * 3 + c) :
    read out i = read canvas i := by
  by_cases hinside : i < canvas.size
  · obtain ⟨cx, hcx, cy, hcy, c, hc3, rfl⟩ := Size.exists_place (Nat.lt_of_lt_of_eq hinside hc)
    have huncovered : ¬ (⟨x, y, size⟩ : Region).Covers cx cy :=
      fun hcovers => hi cx hcx cy hcovers c hc3 rfl
    have hpixel := pixelIn_blit h hcx hcy
    rw [if_neg huncovered] at hpixel
    exact read_of_pixelAt_eq hpixel hc3
  · have hpast : canvas.size ≤ i := Nat.not_lt.mp hinside
    rw [read_of_size_le hpast, read_of_size_le (hout ▸ hpast)]

/-- Copying a packed picture of any size to any position of a packed canvas of
any size.  It always succeeds: no row that is copied runs past the end of
either.  The canvas keeps its length.  A pixel of the canvas that the picture
covers becomes the pixel of the picture that lies on it, and a byte that belongs
to no such pixel stays as it was. -/
theorem blit_places (x y : Nat) (hs : src.size = 3 * size.width * size.height)
    (hc : canvas.size = 3 * canvasSize.width * canvasSize.height) :
    (∃ out, blit src size canvas canvasSize x y = .ok out ∧ out.size = canvas.size
      ∧ (∀ cx < canvasSize.width, ∀ cy < canvasSize.height,
          (x ≤ cx ∧ cx < x + size.width) ∧ y ≤ cy ∧ cy < y + size.height →
          pixelIn out canvasSize cx cy = pixelIn src size (cx - x) (cy - y))
      ∧ ∀ i, (∀ cx < canvasSize.width, ∀ cy,
            (x ≤ cx ∧ cx < x + size.width) ∧ y ≤ cy ∧ cy < y + size.height →
            ∀ c < 3, i ≠ (cy * canvasSize.width + cx) * 3 + c) →
          read out i = read canvas i)
    ∧ (x < canvasSize.width → ∀ r < min size.height (canvasSize.height - y),
        r * (3 * size.width) + 3 * min size.width (canvasSize.width - x) ≤ src.size
          ∧ (y + r) * (3 * canvasSize.width) + (3 * x + 3 * min size.width (canvasSize.width - x))
            ≤ canvas.size) := by
  rw [Nat.mul_assoc] at hs hc
  obtain ⟨out, hblit, hsize⟩ := blit_eq_ok x y hs hc
  refine ⟨⟨out, hblit, hsize, fun cx hcx cy hcy hcovers => ?_, fun i hi => ?_⟩, fun hx r hr => ?_⟩
  · exact (pixelIn_blit hblit hcx hcy).trans (if_pos hcovers)
  · exact read_blit_of_uncovered hblit hc hsize hi
  · rw [hs, hc]
    exact rows_inside hx hr

/-- A picture of two rows, of which the first pixel fits on the corner of a
canvas of sevens. -/
theorem blit_places_corner :
    let size : Size := { width := 1, height := 2 }
    let canvasSize : Size := { width := 2, height := 2 }
    let src : ByteArray := ⟨#[1, 2, 3, 4, 5, 6]⟩
    let canvas : ByteArray := ⟨Array.replicate 12 7⟩
    src.size = 3 * size.width * size.height ∧ canvas.size = 3 * canvasSize.width * canvasSize.height
      ∧ ∃ out, blit src size canvas canvasSize 1 1 = .ok out
        ∧ pixelIn out canvasSize 1 1 = ⟨1, 2, 3⟩ ∧ read out 8 = 7 := by
  intro size canvasSize src canvas
  obtain ⟨⟨out, hblit, -, hpixel, hrest⟩, -⟩ :=
    @blit_places src canvas size canvasSize 1 1 (by decide) (by decide)
  refine ⟨by decide, by decide, out, hblit, ?_, ?_⟩
  · exact (hpixel 1 (by decide) 1 (by decide) (by decide)).trans (by decide)
  · refine (hrest 8 fun cx hcx cy hcovers c hc => ?_).trans (by decide)
    have hcx : cx < 2 := hcx
    have hright : 1 ≤ cx := hcovers.1.1
    have hbelow : 1 ≤ cy := hcovers.2.1
    change 8 ≠ (cy * 2 + cx) * 3 + c
    omega

end Scanout
