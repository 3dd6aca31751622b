import Scanout.Proofs.Fitting
import Scanout.Proofs.Rendering

/-!
# A resized frame stays as it is

A picture that already has the size of its canvas is not resampled.  An exact
fit names no region, and an aspect fit computes the size of the canvas to the
last pixel (`Plan.fitWithin_self`), so it names none either.  In both cases the
plan is the identity (`Plan.make_self`), and drawing it copies the bytes
(`Plan.drawn_self`).

So resizing twice onto one canvas is resizing once, with whatever resampler and
whatever fit the second time (`Frame.resize_bind_resize`).  It is not said that
the first resizing succeeds: it does for all canvases with pixels whose bytes a
buffer can hold, and for no others (`Frame.resize_settles`).
-/

namespace Scanout

/-! ## The identity -/

namespace Plan

variable {size : Size}

/-- A picture of the size of its canvas covers it, with either fit. -/
theorem make_self (fit : Fit) (h : size.positive = true) :
    make size size fit = .ok (whole size size) := by
  cases fit with
  | exact => rfl
  | aspect =>
      have hnone : centred (fitWithin size size) size = none :=
        centred_eq_none_iff.mpr (fitWithin_self h)
      rw [make, dif_pos h]
      exact congrArg Except.ok (Plan.ext rfl rfl hnone)

/-- Drawing a picture that covers its canvas copies it. -/
theorem drawn_self (filter : Resampler) (src : ByteArray) {dst : ByteArray}
    (hd : dst.size = size.byteLength) :
    (whole size size).drawn filter src size dst = src := by
  have hidentity : (whole size size).isIdentity = true := beq_self_eq_true size
  have hrest : dst.extract (whole size size).canvas.byteLength dst.size = ByteArray.empty := by
    rw [hd]
    exact ByteArray.extract_same
  rw [drawn, if_pos ⟨hidentity, rfl⟩, hrest, ByteArray.append_empty]

end Plan

/-! ## Frames -/

namespace Frame

variable {canvas : Size}

/-- A frame resized to its own size is the same frame. -/
theorem resize_self (f : Frame) (filter : Resampler) (fit : Fit)
    (hlength : f.size.byteLength < bufferLimit) :
    f.resize filter f.size fit = .ok f := by
  have hmake := Plan.make_self fit f.positive
  have hblank := Bytes.size_zeros_empty f.size.byteLength
  rw [f.resize_eq_drawn filter hmake rfl f.positive hlength, Plan.drawn_self filter f.bytes hblank]
  exact f.ofBytes_self

/-- No frame is resized to a canvas without pixels. -/
theorem resize_eq_report (f : Frame) (filter : Resampler) (fit : Fit)
    (h : canvas.positive = false) :
    f.resize filter canvas fit = report (.invalidDimensions canvas.width canvas.height) := by
  unfold resize
  rw [if_pos h]
  rfl

/-- Resizing to a canvas and then to the same canvas is resizing once. -/
theorem resize_bind_resize (f : Frame) (filter other : Resampler) (canvas : Size)
    (fit refit : Fit) :
    (f.resize filter canvas fit >>= fun g => g.resize other canvas refit)
      = f.resize filter canvas fit := by
  by_cases h : canvas.positive = true
  · by_cases hlength : canvas.byteLength < bufferLimit
    · obtain ⟨g, hg, rfl⟩ := f.resize_eq_ok filter fit h hlength
      rw [hg]
      exact g.resize_self other refit hlength
    · rw [f.resize_eq_fault filter fit h (Nat.not_lt.mp hlength)]
      rfl
  · rw [f.resize_eq_report filter fit (Bool.eq_false_iff.mpr h)]
    rfl

/-- A frame resized to its own size is the same frame, and a frame that was
resized to a canvas is not changed by resizing it to that canvas again, with any
resampler and any fit.  Resizing succeeds for a canvas with pixels, and yields a
frame of exactly its size, unless no buffer can hold the bytes of the canvas.  A
canvas without pixels is refused. -/
theorem resize_settles (f : Frame) (filter : Resampler) (canvas : Size) (fit : Fit) :
    (f.size.byteLength < bufferLimit → f.resize filter f.size fit = .ok f)
      ∧ (∀ other refit,
          (f.resize filter canvas fit >>= fun g => g.resize other canvas refit)
            = f.resize filter canvas fit)
      ∧ (canvas.positive = true → canvas.byteLength < bufferLimit →
          ∃ g, f.resize filter canvas fit = .ok g ∧ g.size = canvas)
      ∧ (canvas.positive = true → bufferLimit ≤ canvas.byteLength →
          f.resize filter canvas fit = fault)
      ∧ (canvas.positive = false →
          f.resize filter canvas fit = report (.invalidDimensions canvas.width canvas.height)) :=
  ⟨f.resize_self filter fit, fun other refit => f.resize_bind_resize filter other canvas fit refit,
    f.resize_eq_ok filter fit, f.resize_eq_fault filter fit, f.resize_eq_report filter fit⟩

/-- One black pixel. -/
def dot : Frame where
  size := Size.wrap 1 1
  bytes := Bytes.zeros ByteArray.empty 3
  positive := by decide
  length_lt := by decide
  length_eq := Bytes.size_zeros_empty 3

/-- A pixel on a wide canvas, with and without margins. -/
theorem resize_settles_dot :
    let canvas : Size := { width := 3, height := 2 }
    dot.resize .lanczos3 dot.size .aspect = .ok dot
      ∧ ∃ g, dot.resize .lanczos3 canvas .aspect = .ok g ∧ g.size = canvas
        ∧ g.resize .nearest canvas .exact = .ok g := by
  intro canvas
  obtain ⟨hself, hagain, hsize, -⟩ := dot.resize_settles .lanczos3 canvas .aspect
  obtain ⟨g, hg, hcanvas⟩ := hsize (by decide) (by decide)
  have hsettled := hagain .nearest .exact
  rw [hg] at hsettled
  exact ⟨hself (by decide), g, hg, hcanvas, hsettled⟩

/-- A canvas whose bytes can be counted in a 64-bit word although no buffer can
hold them. -/
theorem resize_dot_fails :
    let canvas : Size := { width := 2147483648, height := 2147483648 }
    canvas.positive = true ∧ canvas.byteLength < wordLimit
      ∧ dot.resize .nearest canvas .exact = fault :=
  ⟨by decide, by decide, dot.resize_eq_fault .nearest .exact (by decide) (by decide)⟩

end Frame

end Scanout
