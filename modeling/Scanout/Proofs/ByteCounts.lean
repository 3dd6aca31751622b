import Scanout.Proofs.Drawing

/-!
# Comparing byte counts

Bytes become a frame, and pixels are drawn, only if there are as many bytes as
the sizes ask for.  The number asked for is three times the product of two
sides.  It is computed in a word before anything is compared with it, and there
are sizes for which it is none.  For those the comparison itself faults, and
whatever the bytes are, there is neither a frame nor a reported error.  Both
sides of such a size are longer than 1431655765
(`Size.byteLength_lt_wordLimit`).

For all other sizes the exact number decides.  `Frame.ofBytes_outcomes` lists
what may come of bytes, and `Plan.checkBuffers_outcomes` what may come of the
two buffers that drawing needs, in the order in which they are looked at.
-/

namespace Scanout

/-! ## Sizes whose bytes can be counted -/

namespace Size

theorem byteLength_eq_sides (s : Size) : s.byteLength = 3 * s.width * s.height := by
  rw [byteLength, area, Nat.mul_assoc]

/-- One side that is not longer than a third of the longest is enough. -/
theorem byteLength_lt_wordLimit {s : Size} (h : s.width ≤ 1431655765 ∨ s.height ≤ 1431655765) :
    s.byteLength < wordLimit := by
  have hwidth : s.width ≤ 4294967295 := Nat.le_of_lt_succ s.width_lt
  have hheight : s.height ≤ 4294967295 := Nat.le_of_lt_succ s.height_lt
  have harea : s.area ≤ 1431655765 * 4294967295 := by
    rcases h with h | h
    · exact Nat.mul_le_mul h hheight
    · rw [area, Nat.mul_comm]
      exact Nat.mul_le_mul h hwidth
  rw [byteLength, wordLimit]
  omega

end Size

/-! ## Bytes of a frame -/

namespace Frame

variable {size : Size} {bytes : ByteArray}

/-- The error that bytes of another number than a frame needs are reported with. -/
def miscounted (size : Size) (bytes : ByteArray) : Error :=
  .config "frame" (size.text ++ " RGB frame needs " ++ toString size.byteLength ++ " bytes, got "
    ++ toString bytes.size)

/-- The size is looked at first, then the number that it asks for, and then the
bytes. -/
theorem ofBytes_outcomes (size : Size) (bytes : ByteArray) :
    (size.positive = false
      ∧ ofBytes size bytes = report (.invalidDimensions size.width size.height))
    ∨ (size.positive = true ∧ wordLimit ≤ size.byteLength ∧ ofBytes size bytes = fault)
    ∨ (size.positive = true ∧ size.byteLength < wordLimit ∧ bytes.size ≠ size.byteLength
        ∧ ofBytes size bytes = report (miscounted size bytes))
    ∨ (size.positive = true ∧ size.byteLength < wordLimit ∧ bytes.size = size.byteLength
        ∧ ∃ f, ofBytes size bytes = .ok f ∧ f.size = size ∧ f.bytes = bytes) := by
  by_cases hpos : size.positive = true
  · by_cases hword : size.byteLength < wordLimit
    · by_cases hlength : bytes.size = size.byteLength
      · refine .inr (.inr (.inr
          ⟨hpos, hword, hlength, ⟨size, bytes, hpos, hword, hlength⟩, ?_, rfl, rfl⟩))
        rw [ofBytes, dif_pos hpos, dif_pos hword, dif_pos hlength]
      · refine .inr (.inr (.inl ⟨hpos, hword, hlength, ?_⟩))
        rw [ofBytes, dif_pos hpos, dif_pos hword, dif_neg hlength]
        rfl
    · refine .inr (.inl ⟨hpos, Nat.le_of_not_lt hword, ?_⟩)
      rw [ofBytes, dif_pos hpos, dif_neg hword]
  · refine .inl ⟨Bool.eq_false_iff.mpr hpos, ?_⟩
    rw [ofBytes, dif_neg hpos]

/-- Each outcome has one reason. -/
theorem ofBytes_iff (size : Size) (bytes : ByteArray) :
    (ofBytes size bytes = report (.invalidDimensions size.width size.height)
      ↔ size.positive = false)
    ∧ ((∃ f, ofBytes size bytes = .ok f)
        ↔ size.positive = true ∧ size.byteLength < wordLimit ∧ bytes.size = size.byteLength)
    ∧ (ofBytes size bytes = report (miscounted size bytes)
        ↔ size.positive = true ∧ size.byteLength < wordLimit ∧ bytes.size ≠ size.byteLength)
    ∧ (ofBytes size bytes = fault ↔ size.positive = true ∧ wordLimit ≤ size.byteLength) := by
  obtain ⟨hpos, h⟩ | ⟨hpos, hlarge, h⟩ | ⟨hpos, hword, hlength, h⟩
    | ⟨hpos, hword, hlength, f, h, -⟩ :=
    ofBytes_outcomes size bytes
  · simp [h, hpos, report, fault, miscounted]
  · simp [h, hpos, hlarge, report, fault, Nat.not_lt.mpr hlarge]
  · simp [h, hpos, hword, hlength, report, fault, miscounted]
  · simp [h, hpos, hword, hlength, report, fault]

/-- A frame is made of its bytes as they are. -/
theorem of_ofBytes {f : Frame} (h : ofBytes size bytes = .ok f) :
    f.size = size ∧ f.bytes = bytes := by
  unfold ofBytes at h
  split at h
  · split at h
    · split at h
      · cases h
        exact ⟨rfl, rfl⟩
      · cases h
    · cases h
  · cases h

end Frame

/-! ## Buffers to draw from and to draw on -/

namespace Plan

variable {p : Plan} {src dst : ByteArray} {size : Size}

/-- The source is looked at first, and each buffer right after the number that
it is compared with. -/
theorem checkBuffers_outcomes (p : Plan) (src : ByteArray) (size : Size) (dst : ByteArray) :
    (wordLimit ≤ size.byteLength ∧ p.checkBuffers src size dst = fault)
    ∨ (size.byteLength < wordLimit ∧ src.size ≠ size.byteLength
        ∧ p.checkBuffers src size dst = report (.scale (.sourceLength size.byteLength src.size)))
    ∨ (size.byteLength < wordLimit ∧ src.size = size.byteLength ∧ wordLimit ≤ p.canvas.byteLength
        ∧ p.checkBuffers src size dst = fault)
    ∨ (size.byteLength < wordLimit ∧ src.size = size.byteLength ∧ p.canvas.byteLength < wordLimit
        ∧ dst.size < p.canvas.byteLength
        ∧ p.checkBuffers src size dst
          = report (.scale (.bufferTooSmall p.canvas.byteLength dst.size)))
    ∨ (size.byteLength < wordLimit ∧ src.size = size.byteLength ∧ p.canvas.byteLength < wordLimit
        ∧ p.canvas.byteLength ≤ dst.size ∧ p.checkBuffers src size dst = .ok ()) := by
  by_cases hword : size.byteLength < wordLimit
  · by_cases hs : src.size = size.byteLength
    · by_cases hcanvas : p.canvas.byteLength < wordLimit
      · obtain ⟨-, hshort, hok⟩ := p.checkBuffers_iff src dst hword hcanvas
        by_cases hd : dst.size < p.canvas.byteLength
        · exact .inr (.inr (.inr (.inl ⟨hword, hs, hcanvas, hd, hshort.mpr ⟨hs, hd⟩⟩)))
        · have hroom := Nat.le_of_not_lt hd
          exact .inr (.inr (.inr (.inr ⟨hword, hs, hcanvas, hroom, hok.mpr ⟨hs, hroom⟩⟩)))
      · refine .inr (.inr (.inl ⟨hword, hs, Nat.le_of_not_lt hcanvas, ?_⟩))
        have hexpected : word size.byteLength = .ok size.byteLength := if_pos hword
        have hneeded : word p.canvas.byteLength = fault := if_neg hcanvas
        rw [checkBuffers, hexpected, hneeded, hs]
        exact if_neg (not_not_intro rfl)
    · refine .inr (.inl ⟨hword, hs, ?_⟩)
      have hexpected : word size.byteLength = .ok size.byteLength := if_pos hword
      rw [checkBuffers, hexpected]
      exact if_pos hs
  · refine .inl ⟨Nat.le_of_not_lt hword, ?_⟩
    have hexpected : word size.byteLength = fault := if_neg hword
    rw [checkBuffers, hexpected]
    rfl

/-- Each outcome has one reason, a fault two. -/
theorem checkBuffers_outcome_iff (p : Plan) (src : ByteArray) (size : Size) (dst : ByteArray) :
    (p.checkBuffers src size dst = report (.scale (.sourceLength size.byteLength src.size))
        ↔ size.byteLength < wordLimit ∧ src.size ≠ size.byteLength)
    ∧ (p.checkBuffers src size dst = report (.scale (.bufferTooSmall p.canvas.byteLength dst.size))
        ↔ size.byteLength < wordLimit ∧ src.size = size.byteLength
          ∧ p.canvas.byteLength < wordLimit ∧ dst.size < p.canvas.byteLength)
    ∧ (p.checkBuffers src size dst = .ok ()
        ↔ size.byteLength < wordLimit ∧ src.size = size.byteLength
          ∧ p.canvas.byteLength < wordLimit ∧ p.canvas.byteLength ≤ dst.size)
    ∧ (p.checkBuffers src size dst = fault
        ↔ wordLimit ≤ size.byteLength
          ∨ src.size = size.byteLength ∧ wordLimit ≤ p.canvas.byteLength) := by
  obtain ⟨hlarge, h⟩ | ⟨hword, hs, h⟩ | ⟨hword, hs, hcanvas, h⟩ | ⟨hword, hs, hcanvas, hd, h⟩
      | ⟨hword, hs, hcanvas, hd, h⟩ := checkBuffers_outcomes p src size dst
  · simp [h, hlarge, Nat.not_lt.mpr hlarge, report, fault]
  · simp [h, hword, hs, Nat.not_le.mpr hword, report, fault]
  · simp [h, hword, hs, hcanvas, Nat.not_lt.mpr hcanvas, report, fault]
  · simp [h, hword, hs, hcanvas, hd, Nat.not_le.mpr, report, fault]
  · simp [h, hword, hs, hcanvas, hd, Nat.not_lt.mpr hd, Nat.not_le.mpr, report, fault]

end Plan

/-- Bytes are compared with three times the product of the sides of the size
that they are given with, both to make a frame of them and to draw from them;
and so is the buffer that is drawn on.  If a word can count that many bytes,
they make a frame exactly if there are as many of them, for a size with pixels,
and drawing goes on exactly if there are as many and the destination has no
fewer than it needs.  Any other number is reported, and the destination stays as
it is.  If no word can count them, the comparison faults.  That needs a size
with two sides longer than 1431655765. -/
theorem byteCounts_compared (size : Size) (bytes : ByteArray) (p : Plan) (f : Resampler)
    (dst : ByteArray) :
    let n := 3 * size.width * size.height
    let m := 3 * p.canvas.width * p.canvas.height
    let r := Frame.ofBytes size bytes
    let d := p.drawing f bytes size dst
    ((r = report (.invalidDimensions size.width size.height) ↔ size.width = 0 ∨ size.height = 0)
      ∧ ((∃ f, r = .ok f) ↔ (0 < size.width ∧ 0 < size.height) ∧ n < wordLimit ∧ bytes.size = n)
      ∧ (r = report (.config "frame"
        (size.text ++ " RGB frame needs " ++ toString n ++ " bytes, got " ++ toString bytes.size))
          ↔ (0 < size.width ∧ 0 < size.height) ∧ n < wordLimit ∧ bytes.size ≠ n)
      ∧ (r = fault ↔ (0 < size.width ∧ 0 < size.height) ∧ wordLimit ≤ n)
      ∧ ∀ f, r = .ok f → f.size = size ∧ f.bytes = bytes)
    ∧ ((d.result = report (.scale (.sourceLength n bytes.size)) ↔ n < wordLimit ∧ bytes.size ≠ n)
      ∧ (d.result = report (.scale (.bufferTooSmall m dst.size))
          ↔ n < wordLimit ∧ bytes.size = n ∧ m < wordLimit ∧ dst.size < m)
      ∧ (d.result = .ok () ↔ n < wordLimit ∧ bytes.size = n ∧ m < wordLimit ∧ m ≤ dst.size)
      ∧ (d.result = fault ↔ wordLimit ≤ n ∨ bytes.size = n ∧ wordLimit ≤ m)
      ∧ (d.result ≠ .ok () → d.destination = dst))
    ∧ ∀ s : Size, s.width ≤ 1431655765 ∨ s.height ≤ 1431655765 →
        3 * s.width * s.height < wordLimit := by
  rw [← size.byteLength_eq_sides, ← p.canvas.byteLength_eq_sides]
  intro n m r d
  refine ⟨?_, ?_, fun s hs => ?_⟩
  · have hzero : size.positive = false ↔ size.width = 0 ∨ size.height = 0 := by
      rw [Bool.eq_false_iff, ne_eq, size.positive_iff]
      omega
    rw [← size.positive_iff, ← hzero]
    obtain ⟨hinvalid, hok, hmiscounted, hfault⟩ := Frame.ofBytes_iff size bytes
    exact ⟨hinvalid, hok, hmiscounted, hfault, fun f => Frame.of_ofBytes⟩
  · have hresult : d.result = p.checkBuffers bytes size dst := p.result_drawing f bytes size dst
    obtain ⟨hsource, hshort, hok, hfault⟩ := p.checkBuffers_outcome_iff bytes size dst
    rw [← hresult] at hsource hshort hok hfault
    exact ⟨hsource, hshort, hok, hfault, Plan.destination_of_refused⟩
  · rw [← s.byteLength_eq_sides]
    exact Size.byteLength_lt_wordLimit hs

/-- The bytes of a size with one side at the bound can be counted, so it is
reported that they are missing. -/
theorem byteCounts_compared_bound :
    let size : Size := { width := 1431655765, height := 4294967295 }
    let p : Plan := .whole size size
    3 * size.width * size.height < wordLimit
      ∧ Frame.ofBytes size ByteArray.empty = report (.config "frame"
        "1431655765x4294967295 RGB frame needs 18446744065119617025 bytes, got 0")
      ∧ (p.drawing .nearest ByteArray.empty size ByteArray.empty).result
        = report (.scale (.sourceLength 18446744065119617025 0)) := by
  intro size p
  obtain ⟨⟨-, -, hmiscounted, -⟩, ⟨hsource, -⟩, hbound⟩ :=
    byteCounts_compared size ByteArray.empty p .nearest ByteArray.empty
  have hword := hbound size (.inl (by decide))
  refine ⟨hword, (hmiscounted.mpr ⟨by decide, hword, by decide⟩).trans ?_,
    (hsource.mpr ⟨hword, by decide⟩).trans ?_⟩
  · decide +kernel
  · decide +kernel

/-- No bytes at all are too few for the broadest and highest picture, and it is
not reported: neither when a frame is made of them, nor when a pixel is drawn
onto them. -/
theorem broadest_not_reported :
    let size : Size := { width := 4294967295, height := 4294967295 }
    let pixel : Size := { width := 1, height := 1 }
    size.positive = true ∧ ByteArray.empty.size ≠ 3 * size.width * size.height
      ∧ Frame.ofBytes size ByteArray.empty = fault
      ∧ ((Plan.whole pixel size).drawing .nearest ⟨#[1, 2, 3]⟩ pixel ByteArray.empty).result
        = fault := by
  decide +kernel

end Scanout
