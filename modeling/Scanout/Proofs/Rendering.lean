import Mathlib.Tactic.Ring
import Scanout.Proofs.Calibration
import Scanout.Proofs.Decoding

/-!
# Every picture is rendered

A correction of the picture size is a signed 32-bit count in each direction
(`Offset.InRange`), which may be many times the canvas.  The layout of a
pipeline keeps it harmless.  At most 64 MiB are encoded, so the sides of the
canvas are small, the sides of the box keep all their bits (`Offset.box_sides`),
and its bytes can be counted in a 64-bit word (`Offset.byteLength_box_lt`).
Copying the box cuts it to the canvas row by row and never leaves either buffer
(`blit_eq_ok`).

So a pipeline renders every picture, unless no buffer can hold the box
(`Pipeline.render_total`).
-/

namespace Scanout

/-! ## Small sides -/

namespace Layout

variable {l : Layout}

/-- A layout that passes the check has few pixels. -/
theorem area_le (hl : l.check = .ok ()) : l.width * l.height ≤ 22369621 := by
  have hbytes : 3 * (l.width * l.height) ≤ 64 * 1024 * 1024 := byteLength_le hl
  omega

/-- The two sides together are at most one longer than the number of pixels. -/
theorem sides_le (hl : l.check = .ok ()) : l.width + l.height ≤ l.width * l.height + 1 := by
  obtain ⟨hw, hh, -, -⟩ := l.check_eq_ok_iff.mp hl
  obtain ⟨w, hw⟩ := Nat.exists_eq_succ_of_ne_zero (Nat.ne_of_gt hw)
  obtain ⟨h, hh⟩ := Nat.exists_eq_succ_of_ne_zero (Nat.ne_of_gt hh)
  have hproduct : (w + 1) * (h + 1) = w * h + w + h + 1 := by ring
  rw [hw, hh, Nat.succ_eq_add_one, Nat.succ_eq_add_one, hproduct]
  omega

end Layout

/-! ## Boxes -/

namespace Offset

variable {o : Offset} {l : Layout} {side : Nat} {d : Int}

/-- The correction is a signed 32-bit count in both directions. -/
structure InRange (o : Offset) : Prop where
  dx_ge : -2147483648 ≤ o.dx
  dx_lt : o.dx < 2147483648
  dy_ge : -2147483648 ≤ o.dy
  dy_lt : o.dy < 2147483648

theorem boxSide_pos (side : Nat) (d : Int) : 0 < boxSide side d := by
  unfold boxSide
  omega

theorem boxSide_le (hs : 0 < side) (hd : d < 2147483648) : boxSide side d ≤ side + 2147483647 := by
  unfold boxSide
  omega

/-- The sides of the box keep all their bits. -/
theorem box_sides (ho : o.InRange) (hl : l.check = .ok ()) :
    (o.box l.toSize).width = boxSide l.width o.dx
      ∧ (o.box l.toSize).height = boxSide l.height o.dy := by
  obtain ⟨hw, hh, -, -⟩ := l.check_eq_ok_iff.mp hl
  have harea := Layout.area_le hl
  have hsides := Layout.sides_le hl
  have hwidth := boxSide_le hw ho.dx_lt
  have hheight := boxSide_le hh ho.dy_lt
  constructor
  · exact Nat.mod_eq_of_lt (by omega)
  · exact Nat.mod_eq_of_lt (by omega)

theorem positive_box (ho : o.InRange) (hl : l.check = .ok ()) :
    (o.box l.toSize).positive = true := by
  obtain ⟨hwidth, hheight⟩ := box_sides ho hl
  rw [Size.positive_iff, hwidth, hheight]
  exact ⟨boxSide_pos _ _, boxSide_pos _ _⟩

/-- The bytes of the box can be counted in a 64-bit word. -/
theorem byteLength_box_lt (ho : o.InRange) (hl : l.check = .ok ()) :
    (o.box l.toSize).byteLength < wordLimit := by
  obtain ⟨hw, hh, -, -⟩ := l.check_eq_ok_iff.mp hl
  obtain ⟨hwidth, hheight⟩ := box_sides ho hl
  have harea := Layout.area_le hl
  have hsides := Layout.sides_le hl
  have hproduct : boxSide l.width o.dx * boxSide l.height o.dy
      ≤ l.width * l.height + 2147483647 * (l.width + l.height) + 2147483647 * 2147483647 := by
    calc boxSide l.width o.dx * boxSide l.height o.dy
        ≤ (l.width + 2147483647) * (l.height + 2147483647) :=
          Nat.mul_le_mul (boxSide_le hw ho.dx_lt) (boxSide_le hh ho.dy_lt)
      _ = l.width * l.height + 2147483647 * (l.width + l.height) + 2147483647 * 2147483647 := by
          ring
  rw [Size.byteLength, Size.area, hwidth, hheight, wordLimit]
  omega

theorem box_of_isZero (h : o.isZero = true) {canvas : Size} (hc : canvas.positive = true) :
    o.box canvas = canvas := by
  obtain ⟨hw, hh⟩ := canvas.positive_iff.mp hc
  simp only [isZero, Bool.and_eq_true, beq_iff_eq] at h
  have hwidth : boxSide canvas.width o.dx = canvas.width := by
    rw [h.1, boxSide]
    omega
  have hheight : boxSide canvas.height o.dy = canvas.height := by
    rw [h.2, boxSide]
    omega
  rw [box, hwidth, hheight, Size.wrap_self]

end Offset

/-! ## Copying onto a canvas -/

theorem Bytes.overwrite?_eq_some {b chunk : ByteArray} {start : Nat}
    (h : start + chunk.size ≤ b.size) :
    ∃ c, overwrite? b start chunk = some c ∧ c.size = b.size := by
  have hsome : overwrite? b start chunk = some (chunk.copySlice 0 b start chunk.size) := if_pos h
  refine ⟨_, hsome, ?_⟩
  rw [← length_toList, toList_overwrite? hsome, List.length_append, List.length_append,
    List.length_take, List.length_drop, length_toList, length_toList]
  omega

/-- Rows that lie in both buffers are copied. -/
theorem blitRows_eq_ok {src : ByteArray} {srcPitch dstPitch first run : Nat} (n r : Nat)
    (canvas : ByteArray) (hsrc : ∀ i < r + n, i * srcPitch + run ≤ src.size)
    (hdst : ∀ i < r + n, first + i * dstPitch + run ≤ canvas.size) :
    ∃ out, blitRows src srcPitch dstPitch first run n r canvas = .ok out
      ∧ out.size = canvas.size := by
  induction n generalizing r canvas with
  | zero => exact ⟨canvas, rfl, rfl⟩
  | succ n ih =>
      have hrow := hsrc r (by omega)
      have hplace := hdst r (by omega)
      have hslice : Bytes.slice? src (r * srcPitch) run
          = some (src.extract (r * srcPitch) (r * srcPitch + run)) :=
        if_pos hrow
      have hsize : (src.extract (r * srcPitch) (r * srcPitch + run)).size = run := by
        rw [ByteArray.size_extract]
        omega
      have hfits : first + r * dstPitch + (src.extract (r * srcPitch) (r * srcPitch + run)).size
          ≤ canvas.size := by
        rw [hsize]
        exact hplace
      obtain ⟨next, hnext, hlength⟩ := Bytes.overwrite?_eq_some hfits
      obtain ⟨out, hout, hkeeps⟩ := ih (r + 1) next (fun i hi => hsrc i (by omega)) fun i hi => by
        rw [hlength]
        exact hdst i (by omega)
      refine ⟨out, ?_, hkeeps.trans hlength⟩
      rw [blitRows, hslice, Option.bind_some, hnext]
      exact hout

/-- Of a picture at a position of a canvas, the rows that are copied lie in both
buffers. -/
theorem rows_inside {size canvasSize : Size} {x y r : Nat} (hx : x < canvasSize.width)
    (hr : r < min size.height (canvasSize.height - y)) :
    r * (3 * size.width) + 3 * min size.width (canvasSize.width - x) ≤ size.byteLength
      ∧ (y + r) * (3 * canvasSize.width) + (3 * x + 3 * min size.width (canvasSize.width - x))
        ≤ canvasSize.byteLength :=
  ⟨size.row_le (by omega) (by omega), canvasSize.row_le (by omega) (by omega)⟩

/-- A picture can be copied to any position of a canvas. -/
theorem blit_eq_ok {src canvas : ByteArray} {size canvasSize : Size} (x y : Nat)
    (hs : src.size = size.byteLength) (hc : canvas.size = canvasSize.byteLength) :
    ∃ out, blit src size canvas canvasSize x y = .ok out ∧ out.size = canvas.size := by
  unfold blit
  split
  · exact ⟨canvas, rfl, rfl⟩
  · rename_i hinside
    have hx : x < canvasSize.width := by omega
    apply blitRows_eq_ok
    · intro r hr
      rw [hs]
      exact (rows_inside (y := y) hx (by omega)).1
    · intro r hr
      have hrow : (y + r) * (3 * canvasSize.width)
          + (3 * x + 3 * min size.width (canvasSize.width - x)) ≤ canvasSize.byteLength :=
        (rows_inside hx (by omega)).2
      rw [Nat.add_mul] at hrow
      rw [hc]
      omega

/-! ## Corrected frames -/

namespace Frame

variable {canvas : Size} {o : Offset}

/-- No frame is scaled onto a canvas whose bytes no buffer can hold. -/
theorem resize_eq_fault (f : Frame) (filter : Resampler) (fit : Fit) (h : canvas.positive = true)
    (hlength : bufferLimit ≤ canvas.byteLength) : f.resize filter canvas fit = fault := by
  obtain ⟨p, hmake, -⟩ := Plan.make_eq_ok f.size fit h
  have hbuffer : bufferLength canvas = fault := if_neg (Nat.not_lt.mpr hlength)
  unfold resize
  rw [if_neg (by simp [h]), hmake, hbuffer]
  rfl

/-- With a correction, the picture scaled to the box is copied onto a black canvas. -/
theorem resizeWithOffset_eq_blit {f inner : Frame} {filter : Resampler} {fit : Fit}
    (h : canvas.positive = true) (hlength : canvas.byteLength < bufferLimit) (ho : o.isZero = false)
    (hinner : f.resize filter (o.box canvas) fit = .ok inner) :
    ∃ g, f.resizeWithOffset filter canvas fit o = .ok g ∧ g.size = canvas
      ∧ blit inner.bytes inner.size (Bytes.zeros ByteArray.empty canvas.byteLength) canvas
          (Offset.margin canvas.width o.dx) (Offset.margin canvas.height o.dy) = .ok g.bytes := by
  have hbuffer : bufferLength canvas = .ok canvas.byteLength := if_pos hlength
  have hzeros := Bytes.size_zeros_empty canvas.byteLength
  obtain ⟨bytes, hblit, hbytes⟩ :=
    blit_eq_ok (Offset.margin canvas.width o.dx) (Offset.margin canvas.height o.dy)
    inner.length_eq hzeros
  let g : Frame := ⟨canvas, bytes, h, Nat.lt_trans hlength (by decide), hbytes.trans hzeros⟩
  refine ⟨g, ?_, rfl, hblit⟩
  unfold resizeWithOffset
  rw [if_neg (by simp [h]), ho, if_neg Bool.false_ne_true]
  refine bind_eq_ok.mpr ⟨inner, hinner, ?_⟩
  refine bind_eq_ok.mpr ⟨_, hbuffer, ?_⟩
  refine bind_eq_ok.mpr ⟨bytes, hblit, ?_⟩
  exact g.ofBytes_self

/-- A frame can be scaled with every correction, if a buffer can hold the bytes
of the box. -/
theorem resizeWithOffset_eq_ok (f : Frame) (filter : Resampler) (fit : Fit)
    (h : canvas.positive = true) (hlength : canvas.byteLength < bufferLimit)
    (hbox : (o.box canvas).positive = true) (hboxLength : (o.box canvas).byteLength < bufferLimit) :
    ∃ g, f.resizeWithOffset filter canvas fit o = .ok g ∧ g.size = canvas := by
  by_cases ho : o.isZero = true
  · unfold resizeWithOffset
    rw [if_neg (by simp [h]), ho]
    exact f.resize_eq_ok filter fit h hlength
  · obtain ⟨inner, hinner, -⟩ := f.resize_eq_ok filter fit hbox hboxLength
    obtain ⟨g, hg, hsize, -⟩ := resizeWithOffset_eq_blit h hlength (Bool.eq_false_iff.mpr ho) hinner
    exact ⟨g, hg, hsize⟩

theorem resizeWithOffset_eq_fault (f : Frame) (filter : Resampler) (fit : Fit)
    (h : canvas.positive = true) (ho : o.isZero = false) (hbox : (o.box canvas).positive = true)
    (hboxLength : bufferLimit ≤ (o.box canvas).byteLength) :
    f.resizeWithOffset filter canvas fit o = fault := by
  unfold resizeWithOffset
  rw [if_neg (by simp [h]), ho, if_neg Bool.false_ne_true,
    f.resize_eq_fault filter fit hbox hboxLength]
  rfl

end Frame

/-! ## Rendered frames -/

namespace Encoded.Shows

variable {e : Encoded} {l : Layout} {f : Frame}

/-- The bytes after the pixels of a row are zero. -/
theorem toList_rowPadding {p : Nat → Nat → Pixel} (h : e.Shows l p) (hr : l.rowBytes ≤ l.stride)
    {r : Nat} (hh : r < l.height) :
    Bytes.toList (e.bytes.extract (r * l.stride + l.rowBytes) (r * l.stride + l.stride))
      = List.replicate l.padding 0 := by
  have hrow : ((Bytes.toList e.bytes).drop (r * l.stride)).take l.stride
      = l.rowOf fun x => p x r := by
    rw [h.rows, Bytes.window_flatMap_range (fun _ _ => Layout.length_rowOf hr _) hh]
  rw [Bytes.toList_extract, ← List.drop_drop, List.drop_take, Nat.add_sub_cancel_left, hrow,
    Layout.rowOf, List.drop_left' (l.length_arranged _)]

/-- A buffer that shows a frame in a layout is read back as that frame. -/
theorem decode_eq (h : e.Shows l f.pixel) (hs : f.size = l.toSize) (hl : l.check = .ok ()) :
    e.decode l.order = .ok f := by
  obtain ⟨g, hg, hsize, hpixel⟩ := h.decode hl l.order
  have hw : f.width = l.width := congrArg Size.width hs
  have hh : f.height = l.height := congrArg Size.height hs
  have hgf : f = g := by
    apply Frame.ext_pixel (hs.trans hsize.symm)
    intro x hx y hy
    rw [hpixel x (by omega) y (by omega), ChannelOrder.inverse_apply_apply]
  rw [hg, hgf]

end Encoded.Shows

namespace Pipeline

variable {l : Layout} {filter : Resampler} {o : Offset} {p : Pipeline}

theorem make_eq_ok_iff : make l filter o = .ok p ↔ ∃ hl, p = ⟨l, filter, o, hl⟩ := by
  constructor
  · intro h
    unfold make at h
    split at h
    · rename_i hl
      exact ⟨hl, (Except.ok.inj h).symm⟩
    · cases h
  · rintro ⟨hl, rfl⟩
    exact make_eq_ok filter o hl

/-- A pipeline renders every picture, whatever the correction of its size.  The
box of the picture has the corrected sides, its bytes can be counted, and the
region of its plan lies in it.  If a buffer can hold it, the result has the
size, the stride and the length of the layout, its rows end in zeros, and it is
read back as the corrected picture.  Nothing but that buffer can be missing. -/
theorem render_total (hp : make l filter o = .ok p) (ho : o.InRange) (f : Frame) :
    ((o.box l.toSize).width : Int) = max (l.width + o.dx) 1
      ∧ ((o.box l.toSize).height : Int) = max (l.height + o.dy) 1
      ∧ (o.box l.toSize).byteLength < wordLimit
      ∧ (∃ plan, Plan.make f.size (o.box l.toSize) l.fit = .ok plan
          ∧ ∀ r ∈ plan.region, r.On (o.box l.toSize))
      ∧ ((o.box l.toSize).byteLength < Frame.bufferLimit →
          ∃ g e, f.resizeWithOffset filter l.toSize l.fit o = .ok g ∧ p.render f = .ok e
            ∧ e.size = l.toSize ∧ e.stride = l.stride ∧ e.bytes.size = l.stride * l.height
            ∧ (∀ r < l.height, ∃ padding, e.rowPadding? r = some padding
                ∧ Bytes.toList padding = List.replicate (l.stride - 3 * l.width) 0)
            ∧ e.decode l.order = .ok g)
      ∧ (Frame.bufferLimit ≤ (o.box l.toSize).byteLength → p.render f = fault) := by
  obtain ⟨hl, rfl⟩ := make_eq_ok_iff.mp hp
  obtain ⟨hw, hh, hr, -⟩ := l.check_eq_ok_iff.mp hl
  have hpositive : l.toSize.positive = true := l.positive_iff.mpr ⟨hw, hh⟩
  have hlength : l.byteLength < Frame.bufferLimit :=
    Nat.lt_of_le_of_lt (Layout.byteLength_le hl) (by decide)
  have hbox := Offset.positive_box ho hl
  obtain ⟨hwidth, hheight⟩ := Offset.box_sides ho hl
  obtain ⟨plan, hmake, hcanvas⟩ := Plan.make_eq_ok f.size l.fit hbox
  refine ⟨?_, ?_, Offset.byteLength_box_lt ho hl, ⟨plan, hmake, hcanvas ▸ plan.region_on⟩, ?_, ?_⟩
  · rw [hwidth, Offset.boxSide]
    omega
  · rw [hheight, Offset.boxSide]
    omega
  · intro hboxLength
    obtain ⟨g, hg, hsize⟩ := f.resizeWithOffset_eq_ok filter l.fit hpositive hlength hbox hboxLength
    obtain ⟨e, he, hshows⟩ := encode_shows hsize hl
    refine ⟨g, e, hg, bind_eq_ok.mpr ⟨g, hg, he⟩, hshows.size_eq, hshows.stride_eq,
      hshows.length_eq hr, ?_, hshows.decode_eq hsize hl⟩
    intro r hrow
    exact ⟨_, hshows.rowPadding?_eq_some hr hrow, hshows.toList_rowPadding hr hrow⟩
  · intro hboxLength
    have hnonzero : o.isZero = false := by
      rw [Bool.eq_false_iff]
      intro hzero
      rw [Offset.box_of_isZero hzero hpositive] at hboxLength
      exact absurd hlength (Nat.not_lt.mpr hboxLength)
    unfold render
    rw [f.resizeWithOffset_eq_fault filter l.fit hpositive hnonzero hbox hboxLength]
    rfl

/-- The narrowest and the highest box of the small layout: one column and more
rows than a signed 32-bit word counts. -/
theorem render_total_small :
    let o : Offset := ⟨-2147483648, 2147483647⟩
    ∃ p g e, make smallLayout .lanczos3 o = .ok p ∧ o.InRange
      ∧ (o.box smallLayout.toSize).width = 1 ∧ (o.box smallLayout.toSize).height = 2147483649
      ∧ smallPicture.resizeWithOffset .lanczos3 smallLayout.toSize .exact o = .ok g
      ∧ p.render smallPicture = .ok e ∧ e.bytes.size = 10 ∧ e.decode .gbr = .ok g := by
  intro o
  have hl : smallLayout.check = .ok () := by decide
  have ho : o.InRange := ⟨by decide, by decide, by decide, by decide⟩
  have hmake := make_eq_ok .lanczos3 o hl
  obtain ⟨-, -, -, -, hrender, -⟩ := render_total hmake ho smallPicture
  obtain ⟨g, e, hg, he, -, -, hsize, -, hdecode⟩ := hrender (by decide)
  exact ⟨_, g, e, hmake, ho, by decide, by decide, hg, he, hsize, hdecode⟩

end Pipeline

end Scanout
