import Scanout.Proofs.Drawing
import Scanout.Proofs.Refitting

/-!
# Where a corrected picture lies

A picture whose size is corrected by hand is scaled to a box, and the box is
copied onto a black canvas.  Copying row after row writes every byte of the
window that the box and the canvas share, from the row and the column that it
belongs to (`read_blitRows`), and no other byte (`read_blitRows_of_outside`).
So the canvas shows the box as far as it reaches (`pixelIn_blit`).

The box is centred on each side of the canvas by itself.  On a side that it is
longer than it starts at the edge and is cut off at the far end; on a side that
it is shorter than the two margins are equal or the far one is a pixel more
(`Offset.margin_of_nonneg`, `Offset.margin_of_neg`).  That is true of every
correction, also of one that leaves no more than a pixel of the picture.  A
correction of zero takes another way and arrives at the same frame
(`Frame.resizeWithOffset_places`).
-/

namespace Scanout

/-! ## Copied rows -/

/-- Inside the chunk the bytes of the chunk are read, and the old ones outside. -/
theorem Bytes.read_overwrite? {b c chunk : ByteArray} {start : Nat}
    (h : overwrite? b start chunk = some c) (i : Nat) :
    read c i = if start ≤ i ∧ i < start + chunk.size then read chunk (i - start) else read b i := by
  have hroom : start + chunk.size ≤ b.size := by
    unfold overwrite? at h
    split at h
    · assumption
    · cases h
  have htake : ((toList b).take start).length = start := by
    rw [List.length_take, length_toList]
    omega
  rw [read_eq, toList_overwrite? h, List.append_assoc, List.getD_eq_getElem?_getD,
    List.getElem?_append, htake]
  by_cases hbefore : i < start
  · rw [if_pos hbefore, if_neg (by omega), List.getElem?_take_of_lt hbefore, read_eq,
      List.getD_eq_getElem?_getD]
  · rw [if_neg hbefore, List.getElem?_append, length_toList]
    by_cases hinside : i < start + chunk.size
    · rw [if_pos (by omega), if_pos (by omega), read_eq, List.getD_eq_getElem?_getD]
    · rw [if_neg (by omega), if_neg (by omega), List.getElem?_drop, read_eq,
        List.getD_eq_getElem?_getD]
      congr 2
      omega

open Bytes

section Rows

variable {src canvas out : ByteArray} {srcPitch dstPitch first run n r : Nat}

/-- The first of several rows is copied, and then the others. -/
theorem blitRows_succ_eq_ok
    (h : blitRows src srcPitch dstPitch first run (n + 1) r canvas = .ok out) :
    ∃ row next, row.size = run ∧ (∀ j < run, read row j = read src (r * srcPitch + j))
      ∧ overwrite? canvas (first + r * dstPitch) row = some next
      ∧ blitRows src srcPitch dstPitch first run n (r + 1) next = .ok out := by
  unfold blitRows at h
  split at h
  · cases h
  · rename_i next hnext
    obtain ⟨row, hrow, hover⟩ := Option.bind_eq_some_iff.mp hnext
    unfold slice? at hrow
    split at hrow
    · cases hrow
      refine ⟨_, next, ?_, fun j hj => read_extract (by omega), hover, h⟩
      rw [ByteArray.size_extract]
      omega
    · cases hrow

/-- A byte outside the rows that are written stays as it was. -/
theorem read_blitRows_of_outside {i : Nat}
    (h : blitRows src srcPitch dstPitch first run n r canvas = .ok out)
    (hi : ∀ k, r ≤ k → k < r + n → i < first + k * dstPitch ∨ first + k * dstPitch + run ≤ i) :
    read out i = read canvas i := by
  induction n generalizing r canvas with
  | zero =>
      cases h
      rfl
  | succ n ih =>
      obtain ⟨row, next, hsize, -, hnext, hrest⟩ := blitRows_succ_eq_ok h
      have hfirst := hi r (Nat.le_refl r) (by omega)
      rw [ih hrest fun k hk hk' => hi k (by omega) (by omega), read_overwrite? hnext, hsize,
        if_neg (by omega)]

/-- A byte inside them is that of its row and its column. -/
theorem read_blitRows {k j : Nat} (hrun : run ≤ dstPitch)
    (h : blitRows src srcPitch dstPitch first run n r canvas = .ok out) (hk : r ≤ k)
    (hk' : k < r + n) (hj : j < run) :
    read out (first + k * dstPitch + j) = read src (k * srcPitch + j) := by
  induction n generalizing r canvas with
  | zero => omega
  | succ n ih =>
      obtain ⟨row, next, hsize, hrow, hnext, hrest⟩ := blitRows_succ_eq_ok h
      rcases Nat.eq_or_lt_of_le hk with rfl | hlater
      · -- The rows below start past the end of this one, so they leave its bytes alone.
        have hbelow : ∀ m, r + 1 ≤ m → m < r + 1 + n →
            first + r * dstPitch + j < first + m * dstPitch
              ∨ first + m * dstPitch + run ≤ first + r * dstPitch + j := by
          intro m hm _
          have hpitch : (r + 1) * dstPitch ≤ m * dstPitch := Nat.mul_le_mul_right _ hm
          rw [Nat.succ_mul] at hpitch
          omega
        rw [read_blitRows_of_outside hrest hbelow, read_overwrite? hnext, hsize, if_pos (by omega),
          Nat.add_sub_cancel_left, hrow j hj]
      · exact ih hrest hlater (by omega)

end Rows

/-- A canvas shows the picture that was copied onto it as far as the picture
reaches, and what was there before elsewhere. -/
theorem pixelIn_blit {src canvas out : ByteArray} {size canvasSize : Size} {left top x y : Nat}
    (h : blit src size canvas canvasSize left top = .ok out) (hx : x < canvasSize.width)
    (hy : y < canvasSize.height) :
    pixelIn out canvasSize x y
      = if (⟨left, top, size⟩ : Region).Covers x y then pixelIn src size (x - left) (y - top)
        else pixelIn canvas canvasSize x y := by
  unfold blit at h
  split at h
  · rename_i hpast
    cases h
    rw [if_neg]
    rintro ⟨⟨hleft, -⟩, htop, -⟩
    dsimp only at hleft htop
    omega
  · rename_i hinside
    have hrun : 3 * min size.width (canvasSize.width - left) ≤ 3 * canvasSize.width := by omega
    split
    · rename_i hcovers
      obtain ⟨⟨hleft, hright⟩, htop, hbottom⟩ := hcovers
      dsimp only at hleft hright htop hbottom
      have hrows : y * (3 * canvasSize.width)
          = top * (3 * canvasSize.width) + (y - top) * (3 * canvasSize.width) := by
        rw [← Nat.add_mul, Nat.add_sub_cancel' htop]
      refine pixelAt_congr fun c hc => ?_
      have hread := read_blitRows hrun h (Nat.zero_le (y - top)) (by omega)
        (show 3 * (x - left) + c < 3 * min size.width (canvasSize.width - left) by omega)
      rw [index_eq, index_eq, hrows, ← hread]
      congr 1
      omega
    · rename_i hcovers
      refine pixelAt_congr fun c hc => ?_
      rw [index_eq]
      refine read_blitRows_of_outside h fun k _ hk => ?_
      rcases Nat.lt_trichotomy (top + k) y with hbefore | rfl | hafter
      · have hrows : (top + k + 1) * (3 * canvasSize.width) ≤ y * (3 * canvasSize.width) :=
          Nat.mul_le_mul_right _ hbefore
        rw [Nat.succ_mul, Nat.add_mul] at hrows
        omega
      · have hrow : k < size.height := by omega
        have hcolumns : ¬(left ≤ x ∧ x < left + size.width) := fun hcolumns =>
          hcovers ⟨hcolumns, Nat.le_add_right top k, Nat.add_lt_add_left hrow top⟩
        rw [Nat.add_mul]
        omega
      · have hrows : (y + 1) * (3 * canvasSize.width) ≤ (top + k) * (3 * canvasSize.width) :=
          Nat.mul_le_mul_right _ hafter
        rw [Nat.succ_mul, Nat.add_mul] at hrows
        omega

/-! ## Sides and margins -/

namespace Offset

variable {side box m : Nat} {d : Int}

theorem boxSide_eq (h : (box : Int) = max (side + d) 1) : boxSide side d = box := by
  unfold boxSide
  omega

theorem margin_eq (hbox : (box : Int) = max (side + d) 1)
    (hm : (m : Int) = max ((side - box) / 2) 0) :
    margin side d = m := by
  unfold margin
  rw [boxSide_eq hbox]
  omega

theorem margin_zero (side : Nat) : margin side 0 = 0 := by
  unfold margin boxSide
  omega

/-- A side that is not made shorter starts at the edge and reaches the other. -/
theorem margin_of_nonneg (hbox : (box : Int) = max (side + d) 1)
    (hm : (m : Int) = max ((side - box) / 2) 0)
    (hd : 0 ≤ d) : m = 0 ∧ side ≤ box := by
  omega

/-- A side that is made shorter has two margins, and the far one is the same or
a pixel more. -/
theorem margin_of_neg (hbox : (box : Int) = max (side + d) 1)
    (hm : (m : Int) = max ((side - box) / 2) 0) (hside : 0 < side) (hd : d < 0) :
    m + box ≤ side ∧ (side - (m + box) = m ∨ side - (m + box) = m + 1) := by
  omega

end Offset

/-! ## Corrected frames -/

namespace Frame

variable {canvas box : Size} {o : Offset} {left top : Nat}

/-- A corrected frame shows the picture scaled to the box, behind the margins of
the box, and is black elsewhere. -/
theorem exists_placed (f : Frame) (filter : Resampler) (fit : Fit) (h : canvas.positive = true)
    (hbox : (o.box canvas).positive = true) (hlength : canvas.byteLength < bufferLimit)
    (hboxLength : (o.box canvas).byteLength < bufferLimit) :
    ∃ inner g, f.resize filter (o.box canvas) fit = .ok inner ∧ inner.size = o.box canvas
      ∧ f.resizeWithOffset filter canvas fit o = .ok g ∧ g.size = canvas
      ∧ ∀ x < canvas.width, ∀ y < canvas.height, g.pixel x y
          = (⟨Offset.margin canvas.width o.dx, Offset.margin canvas.height o.dy, o.box canvas⟩
              : Region).place inner.pixel x y := by
  obtain ⟨inner, hinner, hsize⟩ := f.resize_eq_ok filter fit hbox hboxLength
  by_cases ho : o.isZero = true
  · have hcanvas := Offset.box_of_isZero ho h
    have hzero : o = ⟨0, 0⟩ := by
      obtain ⟨dx, dy⟩ := o
      simpa [Offset.isZero] using ho
    rw [hcanvas] at hinner hsize
    rw [hcanvas]
    refine ⟨inner, inner, hinner, hsize, ?_, hsize, fun x hx y hy => ?_⟩
    · rw [hzero, f.resizeWithOffset_zero filter fit h]
      exact hinner
    · rw [hzero, Offset.margin_zero, Offset.margin_zero, Region.place_whole _ hx hy]
  · obtain ⟨g, hg, rfl, hblit⟩ :=
      resizeWithOffset_eq_blit h hlength (Bool.eq_false_iff.mpr ho) hinner
    refine ⟨inner, g, hinner, hsize, hg, rfl, fun x hx y hy => ?_⟩
    have hblank : pixelIn (zeros ByteArray.empty g.size.byteLength) g.size x y = .black :=
      pixelAt_eq_black fun c _ => by rw [read_zeros, read_of_size_le (Nat.zero_le _)]
    have hpixel := pixelIn_blit hblit hx hy
    rw [hblank, hsize] at hpixel
    rw [Region.place]
    refine hpixel.trans ?_
    rw [← hsize]
    rfl

/-- Nothing is put on a canvas whose bytes no buffer can hold, nor scaled to
such a box. -/
theorem resizeWithOffset_eq_fault_of_large (f : Frame) (filter : Resampler) (fit : Fit)
    (h : canvas.positive = true) (hbox : (o.box canvas).positive = true)
    (hlarge : bufferLimit ≤ canvas.byteLength ∨ bufferLimit ≤ (o.box canvas).byteLength) :
    f.resizeWithOffset filter canvas fit o = fault := by
  by_cases ho : o.isZero = true
  · rw [Offset.box_of_isZero ho h, or_self] at hlarge
    unfold resizeWithOffset
    rw [if_neg (by simp [h]), ho]
    exact f.resize_eq_fault filter fit h hlarge
  · have hnonzero := Bool.eq_false_iff.mpr ho
    by_cases hboxLength : (o.box canvas).byteLength < bufferLimit
    · obtain ⟨inner, hinner, -⟩ := f.resize_eq_ok filter fit hbox hboxLength
      have hbuffer : bufferLength canvas = fault := if_neg (by omega)
      unfold resizeWithOffset
      rw [if_neg (by simp [h]), hnonzero, if_neg Bool.false_ne_true, hinner, hbuffer]
      rfl
    · exact f.resizeWithOffset_eq_fault filter fit h hnonzero hbox (Nat.not_lt.mp hboxLength)

/-- A correction of zero is none.  With a correction, the frame shows the
picture scaled to the box from the pixel at `left` and `top` on, and is black
elsewhere.  A side that is not made shorter starts at the edge of the canvas and
is cut off at the far end, and one that is made shorter has margins that differ
by a pixel at most.  All of that holds for every canvas and every box with
32-bit sides whose bytes a buffer can hold; there is no frame for any other. -/
theorem resizeWithOffset_places (f : Frame) (filter : Resampler) (fit : Fit)
    (h : canvas.positive = true) (hwidth : (box.width : Int) = max (canvas.width + o.dx) 1)
    (hheight : (box.height : Int) = max (canvas.height + o.dy) 1)
    (hleft : (left : Int) = max ((canvas.width - box.width) / 2) 0)
    (htop : (top : Int) = max ((canvas.height - box.height) / 2) 0) :
    (o = ⟨0, 0⟩ → f.resizeWithOffset filter canvas fit o = f.resize filter canvas fit)
      ∧ (canvas.byteLength < bufferLimit → box.byteLength < bufferLimit →
          ∃ inner g, f.resize filter box fit = .ok inner ∧ inner.size = box
            ∧ f.resizeWithOffset filter canvas fit o = .ok g ∧ g.size = canvas
            ∧ (∀ x < canvas.width, ∀ y < canvas.height, g.pixel x y
                = if (left ≤ x ∧ x < left + box.width) ∧ top ≤ y ∧ y < top + box.height then
                    inner.pixel (x - left) (y - top)
                  else .black)
            ∧ (0 ≤ o.dx → 0 ≤ o.dy →
                ∀ x < canvas.width, ∀ y < canvas.height, g.pixel x y = inner.pixel x y))
      ∧ (0 ≤ o.dx → left = 0 ∧ canvas.width ≤ box.width)
      ∧ (0 ≤ o.dy → top = 0 ∧ canvas.height ≤ box.height)
      ∧ (o.dx < 0 → left + box.width ≤ canvas.width
          ∧ (canvas.width - (left + box.width) = left
            ∨ canvas.width - (left + box.width) = left + 1))
      ∧ (o.dy < 0 → top + box.height ≤ canvas.height
          ∧ (canvas.height - (top + box.height) = top
            ∨ canvas.height - (top + box.height) = top + 1))
      ∧ (bufferLimit ≤ canvas.byteLength ∨ bufferLimit ≤ box.byteLength →
          f.resizeWithOffset filter canvas fit o = fault) := by
  obtain ⟨hW, hH⟩ := canvas.positive_iff.mp h
  have hbox : o.box canvas = box := by
    rw [Offset.box, Offset.boxSide_eq hwidth, Offset.boxSide_eq hheight, Size.wrap_self]
  have hpositive : (o.box canvas).positive = true := by
    rw [hbox, Size.positive_iff]
    omega
  refine ⟨?_, ?_, Offset.margin_of_nonneg hwidth hleft, Offset.margin_of_nonneg hheight htop,
    Offset.margin_of_neg hwidth hleft hW, Offset.margin_of_neg hheight htop hH, ?_⟩
  · rintro rfl
    exact f.resizeWithOffset_zero filter fit h
  · intro hlength hboxLength
    rw [← hbox] at hboxLength
    obtain ⟨inner, g, hinner, hsize, hg, hcanvas, hplaced⟩ :=
      f.exists_placed filter fit h hpositive hlength hboxLength
    rw [Offset.margin_eq hwidth hleft, Offset.margin_eq hheight htop, hbox] at hplaced
    rw [hbox] at hinner hsize
    refine ⟨inner, g, hinner, hsize, hg, hcanvas, hplaced, fun hdx hdy x hx y hy => ?_⟩
    obtain ⟨rfl, hlong⟩ := Offset.margin_of_nonneg hwidth hleft hdx
    obtain ⟨rfl, hhigh⟩ := Offset.margin_of_nonneg hheight htop hdy
    rw [hplaced x hx y hy, Region.place_whole _ (by omega) (by omega)]
  · rw [← hbox]
    exact f.resizeWithOffset_eq_fault_of_large filter fit h hpositive

/-- A picture of one column and two rows, made two columns narrower and one row
higher than a canvas of three columns and one row: its upper pixel stands
between two black ones. -/
theorem resizeWithOffset_places_narrow :
    let canvas : Size := { width := 3, height := 1 }
    let o : Offset := ⟨-2, 1⟩
    canvas.positive = true ∧ (smallPicture.width : Int) = max (canvas.width + o.dx) 1
      ∧ (smallPicture.height : Int) = max (canvas.height + o.dy) 1
      ∧ ∃ g, smallPicture.resizeWithOffset .lanczos3 canvas .aspect o = .ok g ∧ g.pixel 0 0 = .black
        ∧ g.pixel 1 0 = smallPicture.pixel 0 0 ∧ smallPicture.pixel 0 0 ≠ .black
        ∧ g.pixel 2 0 = .black := by
  intro canvas o
  have hwidth : (smallPicture.size.width : Int) = max (canvas.width + o.dx) 1 := by decide
  have hheight : (smallPicture.size.height : Int) = max (canvas.height + o.dy) 1 := by decide
  have hleft : ((1 : Nat) : Int) = max ((canvas.width - smallPicture.size.width) / 2) 0 := by decide
  have htop : ((0 : Nat) : Int) = max ((canvas.height - smallPicture.size.height) / 2) 0 := by
    decide
  obtain ⟨-, hframe, -⟩ :=
    smallPicture.resizeWithOffset_places .lanczos3 .aspect (by decide) hwidth hheight hleft htop
  obtain ⟨inner, g, hinner, -, hg, -, hplaced, -⟩ := hframe (by decide) (by decide)
  rw [smallPicture.resize_self .lanczos3 .aspect (by decide)] at hinner
  cases hinner
  refine ⟨by decide, hwidth, hheight, g, hg, ?_, ?_, by decide, ?_⟩
  · exact hplaced 0 (by decide) 0 (by decide)
  · exact hplaced 1 (by decide) 0 (by decide)
  · exact hplaced 2 (by decide) 0 (by decide)

/-- A single pixel whose box is larger than every buffer, although its bytes can
be counted in a 64-bit word. -/
theorem resizeWithOffset_dot_fails :
    let canvas : Size := { width := 1, height := 1 }
    let o : Offset := ⟨2147483647, 2147483647⟩
    let box : Size := { width := 2147483648, height := 2147483648 }
    canvas.positive = true ∧ o.InRange ∧ (box.width : Int) = max (canvas.width + o.dx) 1
      ∧ (box.height : Int) = max (canvas.height + o.dy) 1
      ∧ canvas.byteLength < wordLimit ∧ box.byteLength < wordLimit
      ∧ dot.resizeWithOffset .nearest canvas .exact o = fault := by
  intro canvas o box
  refine ⟨by decide, ⟨by decide, by decide, by decide, by decide⟩,
    by decide, by decide, by decide, by decide, ?_⟩
  exact dot.resizeWithOffset_eq_fault .nearest .exact (by decide) (by decide) (by decide)
    (by decide)

end Frame

end Scanout
