import Mathlib.Tactic.Ring
import Scanout.Proofs.ByteRows
import Scanout.Proofs.Fitting

/-!
# What drawing leaves behind

Drawing overwrites the canvas at the start of a destination, and it does so in
one of three ways: the source is copied, it is resampled onto the whole canvas,
or it is resampled into a region of a cleared canvas.  In all three the pixel in
column `x` and row `y` of the canvas is that of one picture, the source
resampled to the size of the plan's content, put into one rectangle of a black
canvas (`Plan.exists_canvas`).  A copy is no exception, because resampling to
the same size copies, and a whole canvas is none, because the rectangle is then
the canvas.

Nothing in that picture depends on the destination, and the rest of the
destination is left alone.  A source of the wrong length and a destination that
is too short are refused before anything is drawn (`Plan.drawing_fills`).
-/

namespace Scanout

/-! ## Pixels of packed pictures -/

namespace Bytes

theorem read_of_size_le {b : ByteArray} {i : Nat} (h : b.size ≤ i) : read b i = 0 :=
  dif_neg (Nat.not_lt.mpr h)

theorem read_append (a b : ByteArray) (i : Nat) :
    read (a ++ b) i = if i < a.size then read a i else read b (i - a.size) := by
  rw [read_eq, toList_concat, List.getD_eq_getElem?_getD, List.getElem?_append, length_toList]
  split
  · rw [read_eq, List.getD_eq_getElem?_getD]
  · rw [read_eq, List.getD_eq_getElem?_getD]

/-- Zeros at the end of a buffer read like the bytes past its end. -/
theorem read_zeros (b : ByteArray) (n i : Nat) : read (zeros b n) i = read b i := by
  rw [read_eq, toList_zeros, List.getD_eq_getElem?_getD, List.getElem?_append, length_toList]
  split
  · rw [read_eq, List.getD_eq_getElem?_getD]
  · rename_i h
    rw [read_of_size_le (Nat.not_lt.mp h), List.getElem?_replicate]
    split
    · rfl
    · rfl

theorem read_extract_rest {b : ByteArray} {start i : Nat} (h : start ≤ i) :
    read (b.extract start b.size) (i - start) = read b i := by
  by_cases hi : i < b.size
  · rw [read_extract (by omega), Nat.add_sub_cancel' h]
  · rw [read_of_size_le (Nat.not_lt.mp hi), read_of_size_le]
    rw [ByteArray.size_extract]
    omega

theorem pixelAt_congr {a b : ByteArray} {i j : Nat} (h : ∀ c < 3, read a (i + c) = read b (j + c)) :
    pixelAt a i = pixelAt b j := by
  have h0 : read a i = read b j := h 0 (by decide)
  rw [pixelAt, pixelAt, h0, h 1 (by decide), h 2 (by decide)]

theorem pixelAt_eq_black {b : ByteArray} {i : Nat} (h : ∀ c < 3, read b (i + c) = 0) :
    pixelAt b i = .black := by
  have h0 : read b i = 0 := h 0 (by decide)
  rw [pixelAt, h0, h 1 (by decide), h 2 (by decide)]
  rfl

/-- The pixel in column `x` and row `y` of a packed picture of a size. -/
def pixelIn (b : ByteArray) (size : Size) (x y : Nat) : Pixel :=
  pixelAt b ((y * size.width + x) * 3)

/-- The bytes of a pixel stand together in its row. -/
theorem index_eq (width x y c : Nat) :
    (y * width + x) * 3 + c = y * (3 * width) + (3 * x + c) := by ring

theorem index_lt {size : Size} {x y c : Nat} (hx : x < size.width) (hy : y < size.height)
    (hc : c < 3) :
    (y * size.width + x) * 3 + c < size.byteLength := by
  have hrow := size.row_le hy (show 3 * x + c + 1 ≤ 3 * size.width by omega)
  rw [index_eq]
  omega

/-- The pixels of a picture stand at the start of any buffer that begins with it. -/
theorem pixelIn_append {a : ByteArray} {size : Size} {x y : Nat} (ha : a.size = size.byteLength)
    (b : ByteArray) (hx : x < size.width) (hy : y < size.height) :
    pixelIn (a ++ b) size x y = pixelIn a size x y := by
  refine pixelAt_congr fun c hc => ?_
  rw [read_append, if_pos]
  rw [ha]
  exact index_lt hx hy hc

end Bytes

open Bytes

/-! ## Pictures in a region -/

namespace Region

/-- The pixel in column `x` and row `y` of the canvas lies in the region. -/
def Covers (r : Region) (x y : Nat) : Prop :=
  (r.left ≤ x ∧ x < r.left + r.size.width) ∧ r.top ≤ y ∧ y < r.top + r.size.height

instance (r : Region) (x y : Nat) : Decidable (r.Covers x y) := inferInstanceAs (Decidable (_ ∧ _))

/-- The pixel of a black canvas with a picture in a region. -/
def place (r : Region) (picture : Nat → Nat → Pixel) (x y : Nat) : Pixel :=
  if r.Covers x y then picture (x - r.left) (y - r.top) else .black

/-- A picture that covers the canvas is its every pixel. -/
theorem place_whole {canvas : Size} {x y : Nat} (picture : Nat → Nat → Pixel)
    (hx : x < canvas.width)
    (hy : y < canvas.height) : (⟨0, 0, canvas⟩ : Region).place picture x y = picture x y :=
  if_pos ⟨⟨Nat.zero_le x, Nat.lt_of_lt_of_eq hx (Nat.zero_add _).symm⟩, Nat.zero_le y,
    Nat.lt_of_lt_of_eq hy (Nat.zero_add _).symm⟩

end Region

variable {canvas : Size} {r : Region} {content : ByteArray} {x y j : Nat}

/-! ## A framed picture -/

/-- A canvas with packed pixels in a region has the bytes of those pixels there,
and zeros elsewhere. -/
theorem read_framed (hr : r.On canvas) (hc : content.size = r.size.byteLength)
    (hy : y < canvas.height) (hj : j < 3 * canvas.width) :
    read (framed canvas r content) (y * (3 * canvas.width) + j)
      = if (3 * r.left ≤ j ∧ j < 3 * r.left + 3 * r.size.width)
            ∧ r.top ≤ y ∧ y < r.top + r.size.height then
          read content ((y - r.top) * (3 * r.size.width) + (j - 3 * r.left))
        else 0 := by
  have hrows : ∀ y < canvas.height,
      (toList (framedRow canvas r content y)).length = 3 * canvas.width :=
    fun y _ => size_framedRow hr hc y
  rw [read_eq, List.getD_eq_getElem?_getD, toList_framed, getElem?_flatMap_range hrows hy hj,
    ← List.getD_eq_getElem?_getD, ← read_eq]
  unfold framedRow
  by_cases hrow : r.top ≤ y ∧ y < r.top + r.size.height
  · rw [if_pos hrow, read_zeros, read_append, size_zeros_empty, read_zeros]
    by_cases hleft : j < 3 * r.left
    · rw [if_pos hleft, if_neg (by omega), read_of_size_le (Nat.zero_le j)]
    · rw [if_neg hleft]
      by_cases hright : j < 3 * r.left + 3 * r.size.width
      · rw [if_pos (by omega), read_extract (by omega)]
      · rw [if_neg (by omega), read_of_size_le]
        rw [ByteArray.size_extract]
        omega
  · rw [if_neg hrow, read_zeros, if_neg (fun h => hrow h.2), read_of_size_le (Nat.zero_le j)]

theorem pixelIn_framed (hr : r.On canvas) (hc : content.size = r.size.byteLength)
    (hx : x < canvas.width) (hy : y < canvas.height) :
    pixelIn (framed canvas r content) canvas x y = r.place (pixelIn content r.size) x y := by
  unfold Region.place
  split
  · rename_i hcovers
    obtain ⟨⟨hleft, hright⟩, hrow⟩ := hcovers
    refine pixelAt_congr fun c hc3 => ?_
    rw [index_eq, index_eq, read_framed hr hc hy (by omega), if_pos ⟨by omega, hrow⟩]
    congr 2
    omega
  · rename_i hcovers
    refine pixelAt_eq_black fun c hc3 => ?_
    rw [index_eq, read_framed hr hc hy (by omega), if_neg]
    exact fun h => hcovers ⟨by omega, h.2⟩

/-! ## Plans -/

namespace Plan

variable {p : Plan} {src : ByteArray} {input size : Size} {fit : Fit}

/-- The rectangle of the canvas that receives the picture. -/
def rectangle (p : Plan) : Region := p.region.getD ⟨0, 0, p.canvas⟩

theorem size_rectangle (p : Plan) : p.rectangle.size = p.content := by
  obtain ⟨input, canvas, region, _⟩ := p
  cases region with
  | none => rfl
  | some r => rfl

theorem rectangle_on (p : Plan) : p.rectangle.On p.canvas := by
  obtain ⟨input, canvas, region, hon⟩ := p
  cases region with
  | none => exact ⟨Nat.le_of_eq (Nat.zero_add _), Nat.le_of_eq (Nat.zero_add _)⟩
  | some r => exact hon r rfl

/-- What is drawn with a source that has pixels is one canvas, whatever the
destination: the resampled source in the rectangle of the plan, and black around
it. -/
theorem exists_canvas (f : Resampler) (hcontent : p.content.positive = true)
    (hsize : size.positive = true) (hs : src.size = size.byteLength) :
    ∃ canvas : ByteArray, canvas.size = p.canvas.byteLength
      ∧ (∀ dst, p.drawn f src size dst = canvas ++ dst.extract p.canvas.byteLength dst.size)
      ∧ ∀ x < p.canvas.width, ∀ y < p.canvas.height,
          pixelIn canvas p.canvas x y
            = p.rectangle.place (pixelIn (f.resample src size p.content) p.content) x y := by
  have hempty : (size.area == 0 || p.content.area == 0) = false := by
    obtain ⟨hw, hh⟩ := size.positive_iff.mp hsize
    obtain ⟨hW, hH⟩ := p.content.positive_iff.mp hcontent
    simp only [Size.area, Bool.or_eq_false_iff, beq_eq_false_iff_ne, ne_eq, Nat.mul_eq_zero]
    omega
  by_cases hid : p.isIdentity = true ∧ size = p.input
  · -- The copy: resampling to the same size copies as well.
    have hdrawn : ∀ dst, p.drawn f src size dst = src ++ dst.extract p.canvas.byteLength dst.size :=
      fun dst => if_pos hid
    obtain ⟨hidentity, rfl⟩ := hid
    obtain ⟨input, canvas, region, _⟩ := p
    simp only [isIdentity, Bool.and_eq_true, Option.isNone_iff_eq_none, beq_iff_eq] at hidentity
    obtain ⟨rfl, rfl⟩ := hidentity
    refine ⟨src, hs, hdrawn, fun x hx y hy => ?_⟩
    change pixelIn src input x y
      = (⟨0, 0, input⟩ : Region).place (pixelIn (f.resample src input input) input) x y
    rw [f.resample_self, Region.place_whole _ hx hy]
  · have hdrawn : ∀ canvas, p.picture? f src size = some canvas →
        ∀ dst, p.drawn f src size dst = canvas ++ dst.extract p.canvas.byteLength dst.size := by
      intro canvas hpicture dst
      rw [drawn, if_neg hid, hpicture]
    obtain ⟨input, canvas, region, hon⟩ := p
    cases region with
    | none =>
        have hpicture : (⟨input, canvas, none, hon⟩ : Plan).picture? f src size
            = some (f.resample src size canvas) := if_neg (Bool.eq_false_iff.mp hempty)
        refine ⟨_, size_picture? hs hpicture, hdrawn _ hpicture, fun x hx y hy => ?_⟩
        exact (Region.place_whole _ hx hy).symm
    | some r =>
        have hpicture : (⟨input, canvas, some r, hon⟩ : Plan).picture? f src size
            = some (framed canvas r (f.resample src size r.size)) :=
          if_neg (Bool.eq_false_iff.mp hempty)
        refine ⟨_, size_picture? hs hpicture, hdrawn _ hpicture, fun x hx y hy => ?_⟩
        exact pixelIn_framed (hon r rfl) (f.size_resample src size r.size hs) hx hy

/-- A plan that was made for a canvas with pixels has content. -/
theorem of_make (hc : canvas.positive = true) (hmake : make input canvas fit = .ok p) :
    p.canvas = canvas ∧ p.content.positive = true := by
  cases fit with
  | exact =>
      cases hmake
      exact ⟨rfl, hc⟩
  | aspect =>
      rw [make, dif_pos hc] at hmake
      cases hmake
      refine ⟨rfl, ?_⟩
      rw [content_centredFit]
      exact positive_fitWithin input canvas

/-- Drawing ends in one of three ways. -/
theorem checkBuffers_iff (p : Plan) (src dst : ByteArray) (hsize : size.byteLength < wordLimit)
    (hcanvas : p.canvas.byteLength < wordLimit) :
    (p.checkBuffers src size dst = report (.scale (.sourceLength size.byteLength src.size))
      ↔ src.size ≠ size.byteLength)
      ∧ (p.checkBuffers src size dst
            = report (.scale (.bufferTooSmall p.canvas.byteLength dst.size))
          ↔ src.size = size.byteLength ∧ dst.size < p.canvas.byteLength)
      ∧ (p.checkBuffers src size dst = .ok ()
          ↔ src.size = size.byteLength ∧ p.canvas.byteLength ≤ dst.size) := by
  rw [p.checkBuffers_eq hsize hcanvas]
  by_cases hs : src.size = size.byteLength
  · rw [if_neg (not_not_intro hs)]
    by_cases hd : dst.size < p.canvas.byteLength
    · simp [report, hs, hd]
    · simp [report, hs, hd, Nat.not_lt.mp hd]
  · simp [report, hs]

theorem result_drawing (p : Plan) (f : Resampler) (src : ByteArray) (size : Size)
    (dst : ByteArray) :
    (p.drawing f src size dst).result = p.checkBuffers src size dst := by
  unfold drawing
  split
  · rename_i h
    exact h.symm
  · rename_i h
    exact h.symm

/-- A destination is touched only if drawing succeeds. -/
theorem destination_of_refused {f : Resampler} {dst : ByteArray}
    (h : (p.drawing f src size dst).result ≠ .ok ()) :
    (p.drawing f src size dst).destination = dst := by
  rw [result_drawing] at h
  unfold drawing
  split
  · contradiction
  · rfl

/-- Drawing a picture of any size by a plan for a canvas with pixels, onto any
destination.  It fails exactly if the source is not as long as its size says, or
else the destination is shorter than the canvas, and then it leaves the
destination alone.  Otherwise a source with pixels fills the canvas, and nothing
else: the rectangle of the plan holds the source resampled to its size, the rest
of the canvas is black, and the bytes past the canvas stay.  The canvas is the
same for every destination. -/
theorem drawing_fills (hc : canvas.positive = true) (hmake : make input canvas fit = .ok p)
    (f : Resampler) (src dst : ByteArray) (hsize : size.byteLength < wordLimit)
    (hcanvas : canvas.byteLength < wordLimit) :
    let d := p.drawing f src size dst
    (d.result = report (.scale (.sourceLength size.byteLength src.size))
      ↔ src.size ≠ size.byteLength)
      ∧ (d.result = report (.scale (.bufferTooSmall canvas.byteLength dst.size))
          ↔ src.size = size.byteLength ∧ dst.size < canvas.byteLength)
      ∧ (d.result = .ok () ↔ src.size = size.byteLength ∧ canvas.byteLength ≤ dst.size)
      ∧ (d.result ≠ .ok () → d.destination = dst)
      ∧ (d.result = .ok () → 0 < src.size →
          p.rectangle.On canvas ∧ p.rectangle.size = p.content
            ∧ (∀ x < canvas.width, ∀ y < canvas.height, pixelIn d.destination canvas x y
                = p.rectangle.place (pixelIn (f.resample src size p.content) p.content) x y)
            ∧ d.destination.size = dst.size
            ∧ (∀ i, canvas.byteLength ≤ i → read d.destination i = read dst i)
            ∧ ∀ other, (p.drawing f src size other).result = .ok () →
                (p.drawing f src size other).destination.extract 0 canvas.byteLength
                  = d.destination.extract 0 canvas.byteLength) := by
  intro d
  obtain ⟨rfl, hcontent⟩ := of_make hc hmake
  have hresult : d.result = p.checkBuffers src size dst := p.result_drawing f src size dst
  obtain ⟨hsource, hshort, hok⟩ := p.checkBuffers_iff src dst hsize hcanvas
  rw [← hresult] at hsource hshort hok
  refine ⟨hsource, hshort, hok, destination_of_refused, fun hdrawn hpixels => ?_⟩
  obtain ⟨hs, hfits⟩ := hok.mp hdrawn
  have hpositive : size.positive = true := by
    rw [hs, Size.byteLength, Size.area] at hpixels
    have harea := Nat.pos_of_mul_pos_left hpixels
    exact size.positive_iff.mpr ⟨Nat.pos_of_mul_pos_right harea, Nat.pos_of_mul_pos_left harea⟩
  obtain ⟨picture, hpicture, hall, hplaced⟩ := exists_canvas f hcontent hpositive hs
  have hdrawing : ∀ other, p.canvas.byteLength ≤ other.size →
      (p.drawing f src size other).destination
        = picture ++ other.extract p.canvas.byteLength other.size := by
    intro other hother
    rw [drawing_of_fits f hs hsize hother hcanvas]
    exact hall other
  have hdestination : d.destination = picture ++ dst.extract p.canvas.byteLength dst.size :=
    hdrawing dst hfits
  refine ⟨p.rectangle_on, p.size_rectangle, ?_, ?_, ?_, ?_⟩
  · intro x hx y hy
    rw [hdestination, pixelIn_append hpicture _ hx hy]
    exact hplaced x hx y hy
  · rw [hdestination, ByteArray.size_append, ByteArray.size_extract]
    omega
  · intro i hi
    rw [hdestination, read_append, if_neg (by omega), hpicture, read_extract_rest hi]
  · intro other hother
    rw [result_drawing] at hother
    have hroom := ((p.checkBuffers_iff src other hsize hcanvas).2.2.mp hother).2
    rw [hdestination, hdrawing other hroom, ByteArray.extract_append_eq_left hpicture.symm,
      ByteArray.extract_append_eq_left hpicture.symm]

/-- Two pixels in the second row of a high canvas, drawn onto a buffer of sevens
that is one pixel longer. -/
theorem drawing_fills_framed :
    let size : Size := { width := 2, height := 1 }
    let canvas : Size := { width := 2, height := 4 }
    let src : ByteArray := ⟨#[1, 2, 3, 4, 5, 6]⟩
    let dst : ByteArray := ⟨Array.replicate 27 7⟩
    ∃ p, canvas.positive = true ∧ make size canvas .aspect = .ok p ∧ size.byteLength < wordLimit
      ∧ canvas.byteLength < wordLimit
      ∧ (p.drawing .lanczos3 src size dst).result = .ok ()
      ∧ pixelIn (p.drawing .lanczos3 src size dst).destination canvas 1 0 = .black
      ∧ pixelIn (p.drawing .lanczos3 src size dst).destination canvas 1 1 = ⟨4, 5, 6⟩
      ∧ read (p.drawing .lanczos3 src size dst).destination 24 = 7 := by
  intro size canvas src dst
  have hmake : make size canvas .aspect = .ok ⟨size, canvas, some ⟨0, 1, size⟩, by decide⟩ := by
    decide +kernel
  have hword : size.byteLength < wordLimit := by decide
  obtain ⟨-, -, hok, -, hfills⟩ :=
    drawing_fills (by decide) hmake .lanczos3 src dst hword (by decide)
  have hdrawn := hok.mpr ⟨by decide, by decide⟩
  obtain ⟨-, -, hpixels, -, hrest, -⟩ := hfills hdrawn (by decide)
  refine ⟨_, by decide, hmake, hword, by decide, hdrawn, ?_, ?_, ?_⟩
  · exact (hpixels 1 (by decide) 0 (by decide)).trans (by decide)
  · exact (hpixels 1 (by decide) 1 (by decide)).trans (by decide)
  · exact (hrest 24 (by decide)).trans (by decide)

end Plan

end Scanout
