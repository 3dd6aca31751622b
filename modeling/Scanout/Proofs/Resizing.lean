import Scanout.Compositor
import Scanout.Proofs.Encoding

/-!
# Resizing always succeeds

Every refusal on the way from a picture to a canvas is one that a frame and a
canvas of usable size rule out: a canvas with pixels has a plan
(`Plan.make_eq_ok`), whatever is drawn by it has the length of the canvas
(`Plan.size_drawn`), and a canvas that passes the check of a layout is small
enough for a buffer.

So resizing a frame is drawing it onto a black canvas (`Frame.resize_eq_drawn`).
That succeeds for any canvas with pixels whose bytes a buffer can hold
(`Frame.resize_eq_ok`), and a layout that passes the check is always encoded
(`Frame.resize_encode_eq_ok`).
-/

namespace Scanout

/-! ## Plans -/

/-- A canvas with pixels has a plan. -/
theorem Plan.make_eq_ok {canvas : Size} (input : Size) (fit : Fit) (h : canvas.positive = true) :
    ∃ p, make input canvas fit = .ok p ∧ p.canvas = canvas := by
  cases fit with
  | exact => exact ⟨_, rfl, rfl⟩
  | aspect => exact ⟨_, dif_pos h, rfl⟩

/-! ## Drawing -/

/-- One row of a black canvas with packed pixels in a region. -/
def framedRow (canvas : Size) (r : Region) (content : ByteArray) (y : Nat) : ByteArray :=
  if r.top ≤ y ∧ y < r.top + r.size.height then
    let run := 3 * r.size.width
    let row := content.extract ((y - r.top) * run) ((y - r.top) * run + run)
    Bytes.zeros (Bytes.zeros ByteArray.empty (3 * r.left) ++ row)
      (3 * (canvas.width - r.left - r.size.width))
  else Bytes.zeros ByteArray.empty (3 * canvas.width)

theorem toList_framed (canvas : Size) (r : Region) (content : ByteArray) :
    Bytes.toList (framed canvas r content)
      = (List.range canvas.height).flatMap fun y =>
          Bytes.toList (framedRow canvas r content y) := by
  unfold framed
  dsimp only
  rw [Bytes.toList_appendRows _ _ _ fun y => Bytes.toList (framedRow canvas r content y)]
  · rfl
  · intro y _ acc
    unfold framedRow
    split
    · simp only [Bytes.toList_zeros, Bytes.toList_concat, Bytes.toList_empty, List.nil_append,
        List.append_assoc]
    · simp only [Bytes.toList_zeros, Bytes.toList_empty, List.nil_append]

theorem size_framedRow {canvas : Size} {r : Region} {content : ByteArray} (hr : r.On canvas)
    (hc : content.size = r.size.byteLength) (y : Nat) :
    (framedRow canvas r content y).size = 3 * canvas.width := by
  unfold framedRow
  split
  · rename_i hy
    have hrow : (y - r.top + 1) * (3 * r.size.width) ≤ r.size.height * (3 * r.size.width) :=
      Nat.mul_le_mul_right _ (by omega)
    rw [Nat.succ_mul, ← r.size.byteLength_eq, ← hc] at hrow
    have hwidth := hr.width_le
    rw [Bytes.size_zeros, ByteArray.size_append, Bytes.size_zeros_empty, ByteArray.size_extract,
      Nat.min_eq_left hrow]
    omega
  · exact Bytes.size_zeros_empty _

theorem size_framed {canvas : Size} {r : Region} {content : ByteArray} (hr : r.On canvas)
    (hc : content.size = r.size.byteLength) :
    (framed canvas r content).size = canvas.byteLength := by
  have hrows : ∀ y < canvas.height,
      (Bytes.toList (framedRow canvas r content y)).length = 3 * canvas.width :=
    fun y _ => size_framedRow hr hc y
  rw [← Bytes.length_toList, toList_framed, Bytes.length_flatMap_range hrows, canvas.byteLength_eq]

theorem Plan.size_picture? {p : Plan} {f : Resampler} {src canvas : ByteArray} {size : Size}
    (hs : src.size = size.byteLength)
    (h : p.picture? f src size = some canvas) : canvas.size = p.canvas.byteLength := by
  unfold picture? at h
  dsimp only at h
  cases hregion : p.region with
  | none =>
      rw [hregion] at h
      dsimp only at h
      split at h
      · cases h
      · cases h
        exact f.size_resample src size p.canvas hs
  | some r =>
      rw [hregion] at h
      dsimp only at h
      split at h
      · cases h
        exact Bytes.size_zeros_empty _
      · cases h
        exact size_framed (p.region_on r hregion) (f.size_resample src size r.size hs)

/-- The source is checked first, and then the destination. -/
theorem Plan.checkBuffers_eq (p : Plan) {src dst : ByteArray} {size : Size}
    (hword : size.byteLength < wordLimit) (hcanvas : p.canvas.byteLength < wordLimit) :
    p.checkBuffers src size dst
      = if src.size ≠ size.byteLength then report (.scale (.sourceLength size.byteLength src.size))
        else if dst.size < p.canvas.byteLength then
          report (.scale (.bufferTooSmall p.canvas.byteLength dst.size))
        else .ok () := by
  have hexpected : word size.byteLength = .ok size.byteLength := if_pos hword
  have hneeded : word p.canvas.byteLength = .ok p.canvas.byteLength := if_pos hcanvas
  rw [checkBuffers, hexpected, hneeded]
  by_cases hs : src.size ≠ size.byteLength
  · rw [if_pos hs]
    exact if_pos hs
  · rw [if_neg hs]
    refine (if_neg hs).trans ?_
    by_cases hd : dst.size < p.canvas.byteLength
    · rw [if_pos hd]
      exact if_pos hd
    · rw [if_neg hd]
      exact if_neg hd

/-- A source of the right length is drawn onto every destination that holds the
canvas. -/
theorem Plan.drawing_of_fits {p : Plan} (f : Resampler) {src dst : ByteArray} {size : Size}
    (hs : src.size = size.byteLength) (hword : size.byteLength < wordLimit)
    (hd : p.canvas.byteLength ≤ dst.size) (hcanvas : p.canvas.byteLength < wordLimit) :
    p.drawing f src size dst = ⟨.ok (), p.drawn f src size dst⟩ := by
  rw [drawing, p.checkBuffers_eq hword hcanvas, if_neg (not_not_intro hs),
    if_neg (Nat.not_lt.mpr hd)]

theorem draw_eq_ok {p : Plan} (f : Resampler) {src dst : ByteArray} {size : Size}
    (hs : src.size = size.byteLength) (hword : size.byteLength < wordLimit)
    (hd : p.canvas.byteLength ≤ dst.size) (hcanvas : p.canvas.byteLength < wordLimit) :
    draw p f src size dst = .ok (p.drawn f src size dst) := by
  rw [draw, p.drawing_of_fits f hs hword hd hcanvas]
  rfl

/-- Drawing keeps the length of a destination that is just the canvas. -/
theorem Plan.size_drawn {p : Plan} (f : Resampler) {src dst : ByteArray} {size : Size}
    (hs : src.size = size.byteLength) (hd : dst.size = p.canvas.byteLength) :
    (p.drawn f src size dst).size = p.canvas.byteLength := by
  have hrest : (dst.extract p.canvas.byteLength dst.size).size = 0 := by
    rw [ByteArray.size_extract]
    omega
  unfold drawn
  split
  · rename_i hid
    have hcover : size = p.canvas := by
      have hin := hid.1
      simp only [isIdentity, Bool.and_eq_true, beq_iff_eq] at hin
      rw [hid.2, hin.2]
    rw [ByteArray.size_append, hrest, hs, hcover, Nat.add_zero]
  · cases hpicture : p.picture? f src size with
    | none => exact hd
    | some canvas =>
        dsimp only
        rw [ByteArray.size_append, hrest, size_picture? hs hpicture, Nat.add_zero]

/-! ## Frames -/

/-- A frame is scaled by drawing it onto a black canvas. -/
theorem Frame.resize_eq_drawn (f : Frame) (filter : Resampler) {canvas : Size} {fit : Fit}
    {p : Plan} (hmake : Plan.make f.size canvas fit = .ok p) (hp : p.canvas = canvas)
    (h : canvas.positive = true) (hlength : canvas.byteLength < bufferLimit) :
    f.resize filter canvas fit
      = ofBytes canvas
          (p.drawn filter f.bytes f.size (Bytes.zeros ByteArray.empty canvas.byteLength)) := by
  subst hp
  have hword : p.canvas.byteLength < wordLimit := Nat.lt_trans hlength (by decide)
  have hbuffer : bufferLength p.canvas = .ok p.canvas.byteLength := if_pos hlength
  have hblank := Bytes.size_zeros_empty p.canvas.byteLength
  have hdraw := draw_eq_ok filter f.length_eq f.length_lt (Nat.le_of_eq hblank.symm) hword
  unfold resize
  rw [if_neg (by simp [h]), hmake, hbuffer]
  exact congrArg (· >>= ofBytes p.canvas) hdraw

/-- A frame can be scaled onto every canvas with pixels whose bytes a buffer can
hold. -/
theorem Frame.resize_eq_ok (f : Frame) (filter : Resampler) {canvas : Size} (fit : Fit)
    (h : canvas.positive = true) (hlength : canvas.byteLength < bufferLimit) :
    ∃ g, f.resize filter canvas fit = .ok g ∧ g.size = canvas := by
  obtain ⟨p, hmake, rfl⟩ := Plan.make_eq_ok f.size fit h
  let g : Frame := ⟨p.canvas, _, h, Nat.lt_trans hlength (by decide),
    Plan.size_drawn filter f.length_eq (Bytes.size_zeros_empty p.canvas.byteLength)⟩
  refine ⟨g, ?_, rfl⟩
  rw [f.resize_eq_drawn filter hmake rfl h hlength]
  exact g.ofBytes_self

/-- A frame can be scaled and encoded for every layout that passes the check. -/
theorem Frame.resize_encode_eq_ok (f : Frame) (filter : Resampler) {l : Layout}
    (hl : l.check = .ok ()) :
    ∃ g e, f.resize filter l.toSize l.fit = .ok g ∧ encode g l = .ok e := by
  obtain ⟨hw, hh, -, -⟩ := l.check_eq_ok_iff.mp hl
  have hlength : l.byteLength < bufferLimit :=
    Nat.lt_of_le_of_lt (Layout.byteLength_le hl) (by decide)
  obtain ⟨g, hg, hsize⟩ := f.resize_eq_ok filter l.fit (l.positive_iff.mpr ⟨hw, hh⟩) hlength
  obtain ⟨e, he, -⟩ := encode_shows hsize hl
  exact ⟨g, e, hg, he⟩

end Scanout
