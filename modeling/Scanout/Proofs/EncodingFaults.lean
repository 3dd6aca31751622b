import Scanout.Proofs.Encoding

/-!
# What encoding comes to

A layout that is encoded need not be one that a buffer can have.  `Encodes` says
what becomes of a frame in any layout: the sizes are compared first, then the
stride with a row, then the length of the buffer with the limit, and a frame
that passes all three is written.  The rules exclude each other, so each of them
is also the condition of its own outcome.

Two things do not happen.  No error speaks of a picture without pixels, since a
frame has pixels and a layout of its size has them too.  And no outcome depends
on the width of a machine word, although the length of the buffer is computed in
words: a length that is no word is above the limit (`frameFits_iff`), and one
below the limit is a word (`Layout.bufferLength_eq`).
-/

namespace Scanout

namespace Layout

variable {l : Layout}

/-- The error of a layout whose buffer is too large. -/
def oversized (l : Layout) : Error :=
  .config "stride" (toString l.stride ++ " bytes x " ++ toString l.height ++ " rows exceeds the "
    ++ toString maxBufferLength ++ " byte frame limit")

/-- Up to the limit the length of the buffer is exact. -/
theorem bufferLength_eq (h : l.stride * l.height ≤ maxBufferLength) :
    l.bufferLength = l.stride * l.height := by
  have hword : maxBufferLength ≤ wordLimit - 1 := by decide
  rw [bufferLength, Nat.min_eq_left (Nat.le_trans h hword)]

/-- The padding of a row that holds its pixels is exact. -/
theorem padding_add_rowBytes (h : l.rowBytes ≤ l.stride) : l.padding + l.rowBytes = l.stride := by
  rw [padding, Nat.sub_add_cancel h]

theorem check_of_positive (hp : l.toSize.positive = true) :
    l.check = if l.stride < 3 * l.width then .error (.invalidStride l.stride l.width (3 * l.width))
      else if frameFits l.stride l.height then .ok () else .error l.oversized := by
  rw [check, Size.check, if_pos hp]
  rfl

end Layout

/-! ## Frames in any layout -/

/-- What may become of a frame that is encoded. -/
inductive Encodes (f : Frame) (l : Layout) : Outcome Encoded → Prop where
  /-- The frame is not of the size of the layout. -/
  | mismatch : f.size ≠ l.toSize →
      Encodes f l (report (.dimensionMismatch l.width l.height f.width f.height))
  /-- The stride does not hold a row. -/
  | short : f.size = l.toSize → l.stride < 3 * l.width →
      Encodes f l (report (.invalidStride l.stride l.width (3 * l.width)))
  /-- The buffer is too large. -/
  | large : f.size = l.toSize → 3 * l.width ≤ l.stride → maxBufferLength < l.stride * l.height →
      Encodes f l (report l.oversized)
  /-- The frame is written. -/
  | written {e} : f.size = l.toSize → 3 * l.width ≤ l.stride →
      l.stride * l.height ≤ maxBufferLength → e.Shows l f.pixel → Encodes f l (.ok e)

theorem encodes (f : Frame) (l : Layout) : Encodes f l (encode f l) := by
  by_cases hs : f.size = l.toSize
  · have hp : l.toSize.positive = true := hs ▸ f.positive
    have hcheck := l.check_of_positive hp
    by_cases hrow : l.stride < 3 * l.width
    · rw [if_pos hrow] at hcheck
      rw [encode, if_neg (not_not_intro hs), hcheck]
      exact .short hs hrow
    · rw [if_neg hrow] at hcheck
      by_cases hfits : frameFits l.stride l.height = true
      · rw [if_pos hfits] at hcheck
        obtain ⟨e, hok, he⟩ := encode_shows hs hcheck
        rw [hok]
        exact .written hs (Nat.le_of_not_lt hrow) (frameFits_iff.mp hfits) he
      · rw [if_neg hfits] at hcheck
        rw [encode, if_neg (not_not_intro hs), hcheck]
        exact .large hs (Nat.le_of_not_lt hrow) (Nat.lt_of_not_le (mt frameFits_iff.mpr hfits))
  · rw [encode, if_pos hs]
    exact .mismatch hs

namespace Encodes

variable {f : Frame} {l : Layout} {r : Outcome Encoded} {failure : Failure} {e : Encoded}

theorem mismatch_iff (h : Encodes f l r) :
    r = report (.dimensionMismatch l.width l.height f.width f.height) ↔ f.size ≠ l.toSize := by
  cases h with
  | mismatch hs => exact ⟨fun _ => hs, fun _ => rfl⟩
  | short hs _ => exact ⟨fun h => (nomatch h), fun hne => absurd hs hne⟩
  | large hs _ _ => exact ⟨fun h => (nomatch h), fun hne => absurd hs hne⟩
  | written hs _ _ _ => exact ⟨fun h => (nomatch h), fun hne => absurd hs hne⟩

theorem short_iff (h : Encodes f l r) :
    r = report (.invalidStride l.stride l.width (3 * l.width))
      ↔ f.size = l.toSize ∧ l.stride < 3 * l.width := by
  cases h with
  | mismatch hs => exact ⟨fun h => (nomatch h), fun h => absurd h.1 hs⟩
  | short hs hrow => exact ⟨fun _ => ⟨hs, hrow⟩, fun _ => rfl⟩
  | large _ hrow _ => exact ⟨fun h => (nomatch h), fun h => absurd h.2 (Nat.not_lt_of_le hrow)⟩
  | written _ hrow _ _ => exact ⟨fun h => (nomatch h), fun h => absurd h.2 (Nat.not_lt_of_le hrow)⟩

theorem large_iff (h : Encodes f l r) : r = report l.oversized
    ↔ f.size = l.toSize ∧ 3 * l.width ≤ l.stride ∧ maxBufferLength < l.stride * l.height := by
  cases h with
  | mismatch hs => exact ⟨fun h => (nomatch h), fun h => absurd h.1 hs⟩
  | short _ hrow => exact ⟨fun h => (nomatch h), fun h => absurd hrow (Nat.not_lt_of_le h.2.1)⟩
  | large hs hrow hlarge => exact ⟨fun _ => ⟨hs, hrow, hlarge⟩, fun _ => rfl⟩
  | written _ _ hfits _ =>
      exact ⟨fun h => (nomatch h), fun h => absurd h.2.2 (Nat.not_lt_of_le hfits)⟩

theorem exists_ok_iff (h : Encodes f l r) : (∃ e, r = .ok e)
    ↔ f.size = l.toSize ∧ 3 * l.width ≤ l.stride ∧ l.stride * l.height ≤ maxBufferLength := by
  cases h with
  | mismatch hs => exact ⟨fun ⟨_, h⟩ => (nomatch h), fun h => absurd h.1 hs⟩
  | short _ hrow => exact ⟨fun ⟨_, h⟩ => (nomatch h), fun h => absurd hrow (Nat.not_lt_of_le h.2.1)⟩
  | large _ _ hlarge =>
      exact ⟨fun ⟨_, h⟩ => (nomatch h), fun h => absurd hlarge (Nat.not_lt_of_le h.2.2)⟩
  | written hs hrow hfits _ => exact ⟨fun _ => ⟨hs, hrow, hfits⟩, fun _ => ⟨_, rfl⟩⟩

/-- A frame that is not written ends in one of three errors, and in no fault. -/
theorem failure_mem (h : Encodes f l r) (hr : r = .error failure) :
    failure ∈ [.error (.dimensionMismatch l.width l.height f.width f.height),
      .error (.invalidStride l.stride l.width (3 * l.width)), .error l.oversized] := by
  cases h with
  | mismatch _ | short _ _ | large _ _ _ =>
      cases hr
      simp
  | written _ _ _ _ => cases hr

theorem not_noPixels (h : Encodes f l r) (w t : Nat) : r ≠ report (.invalidDimensions w t) := by
  intro hr
  have hmem := h.failure_mem hr
  simp [Layout.oversized] at hmem

/-- What is computed in capped numbers is exact wherever a frame is written. -/
theorem lengths_of_ok (h : Encodes f l r) (hr : r = .ok e) :
    l.padding + 3 * l.width = l.stride ∧ l.bufferLength = l.stride * l.height
      ∧ e.padding = l.padding ∧ e.bytes.size = l.bufferLength := by
  cases h with
  | mismatch _ | short _ _ | large _ _ _ => cases hr
  | written _ hrow hfits he =>
      cases hr
      refine ⟨Layout.padding_add_rowBytes hrow, Layout.bufferLength_eq hfits, ?_, ?_⟩
      · rw [Encoded.padding, Layout.padding, he.stride_eq, he.rowBytes_eq]
      · rw [he.length_eq hrow, Layout.bufferLength_eq hfits]

end Encodes

/-- Encoding a frame in any layout never faults.  The first of three conditions
that is met tells the error: the sizes differ, the stride does not hold a row,
or the exact length of the buffer is above the limit of 67108864 bytes.  If none
is met the frame is written, and then the padding and the length of the buffer
are exact. -/
theorem encode_total (f : Frame) (l : Layout) :
    (encode f l = report (.dimensionMismatch l.width l.height f.width f.height) ↔ f.size ≠ l.toSize)
      ∧ (encode f l = report (.invalidStride l.stride l.width (3 * l.width))
          ↔ f.size = l.toSize ∧ l.stride < 3 * l.width)
      ∧ (encode f l = report l.oversized
          ↔ f.size = l.toSize ∧ 3 * l.width ≤ l.stride ∧ 67108864 < l.stride * l.height)
      ∧ ((∃ e, encode f l = .ok e)
          ↔ f.size = l.toSize ∧ 3 * l.width ≤ l.stride ∧ l.stride * l.height ≤ 67108864)
      ∧ (∀ failure, encode f l = .error failure →
          failure ∈ [.error (.dimensionMismatch l.width l.height f.width f.height),
            .error (.invalidStride l.stride l.width (3 * l.width)), .error l.oversized])
      ∧ (∀ width height, encode f l ≠ report (.invalidDimensions width height))
      ∧ ∀ e, encode f l = .ok e →
          l.padding + 3 * l.width = l.stride ∧ l.bufferLength = l.stride * l.height
          ∧ e.padding = l.padding ∧ e.bytes.size = l.bufferLength := by
  have h := encodes f l
  exact ⟨h.mismatch_iff, h.short_iff, h.large_iff, h.exists_ok_iff, fun _ => h.failure_mem,
    h.not_noPixels, fun _ => h.lengths_of_ok⟩

/-- A layout of another size is refused for its size, even if its stride holds
no row. -/
example : encode smallPicture { smallLayout with toSize := { width := 2, height := 2 } }
    = report (.dimensionMismatch 2 2 1 2) := by decide

end Scanout
