import Scanout.Proofs.ByteRows
import Scanout.Proofs.Providers

/-!
# What a framebuffer shows

The picture of a framebuffer takes a number of bytes that depends on its size
and its pixel format alone (`Framebuffer.needed`).  A file shows a picture if it
has that many bytes and they are not all zero (`Framebuffer.Shows`).  Then the
pixels of the frame are read off those bytes, each in the order of the format,
and the bytes after them do not matter (`Framebuffer.acquire_congr`).

A file that shows no picture is refused, and a chain asks its next provider.  An
empty file is the exception.  A device node has no length either, so the length
of an empty file is not checked: if memory has room for the picture, it is
touched where it has no bytes, and that is a fault
(`Framebuffer.acquire_of_empty`).
-/

namespace Scanout

/-! ## The first bytes of a buffer -/

section Prefix

variable {b c : ByteArray} {n : Nat}

theorem Bytes.anyNonzero_iff : anyNonzero b n = true ↔ ∃ i < n, read b i ≠ 0 := by
  induction n with
  | zero => simp [anyNonzero]
  | succ n ih => rw [anyNonzero, Bool.or_eq_true, bne_iff_ne, ih, Nat.exists_lt_succ_right, or_comm]

/-- A pixel is read off its own bytes. -/
theorem PixelFormat.pixel_congr {format : PixelFormat} {i : Nat} (hi : i < n)
    (h : ∀ j < n * format.bytesPerPixel, Bytes.read b j = Bytes.read c j) :
    format.pixel b i = format.pixel c i := by
  have hread : ∀ k < format.bytesPerPixel,
      Bytes.read b (format.bytesPerPixel * i + k)
        = Bytes.read c (format.bytesPerPixel * i + k) := by
    intro k hk
    have hlast : (i + 1) * format.bytesPerPixel ≤ n * format.bytesPerPixel :=
      Nat.mul_le_mul_right _ hi
    rw [Nat.succ_mul, Nat.mul_comm i] at hlast
    exact h _ (by omega)
  cases format with
  | rgb24 =>
      simp only [pixel, Bytes.pixelAt, Pixel.mk.injEq]
      exact ⟨hread 0 (by decide), hread 1 (by decide), hread 2 (by decide)⟩
  | bgra32 =>
      simp only [pixel, Pixel.mk.injEq]
      exact ⟨hread 2 (by decide), hread 1 (by decide), hread 0 (by decide)⟩

end Prefix

/-- The pixels are numbered row by row. -/
theorem Size.place_lt {s : Size} {x y : Nat} (hx : x < s.width) (hy : y < s.height) :
    y * s.width + x < s.area := by
  have hrow : (y + 1) * s.width ≤ s.height * s.width := Nat.mul_le_mul_right _ hy
  rw [Nat.succ_mul, Nat.mul_comm s.height] at hrow
  rw [area]
  omega

/-! ## Files that show a picture -/

namespace Framebuffer

variable {fb : Framebuffer} {t : FileTree} {b c : ByteArray} {held heldLater : Bool}

/-- How many bytes the picture takes. -/
def needed (fb : Framebuffer) : Nat := fb.size.area * fb.format.bytesPerPixel

/-- There are enough bytes for the picture, and they are not all zero. -/
def Shows (fb : Framebuffer) (b : ByteArray) : Prop :=
  fb.needed ≤ b.size ∧ ∃ i < fb.needed, Bytes.read b i ≠ 0

/-- The pixel in column `x` and row `y`, if these are the bytes of the framebuffer. -/
def shown (fb : Framebuffer) (b : ByteArray) (x y : Nat) : Pixel :=
  fb.format.pixel b (y * fb.size.width + x)

/-- A packed picture is not longer than the picture of the framebuffer. -/
theorem byteLength_le (fb : Framebuffer) : fb.size.byteLength ≤ fb.needed := by
  rw [Size.byteLength, needed, Nat.mul_comm]
  exact Nat.mul_le_mul_left _ (by cases fb.format <;> decide)

theorem needed_pos (hpos : fb.size.positive = true) : 0 < fb.needed := by
  obtain ⟨hw, hh⟩ := fb.size.positive_iff.mp hpos
  exact Nat.mul_pos (Nat.mul_pos hw hh) (by cases fb.format <;> decide)

section File

variable (hpos : fb.size.positive = true) (hneeded : fb.needed < wordLimit)
  (hfile : t.lookup fb.path = .ok (.file b held))
include hpos hneeded hfile

theorem acquire_of_file :
    fb.acquire t =
      if b.size = 0 then fb.acquireEmpty fb.needed
      else if b.size < fb.needed then fb.tooShort b.size fb.needed
      else if Bytes.anyNonzero b fb.needed
        then Frame.ofBytes fb.size (Frame.tabulateBytes fb.size (fb.shown b))
      else fb.unavailable "framebuffer is blank" := by
  have hsize : ¬ fb.size.positive = false := by rw [hpos]; decide
  have hword : ¬ wordLimit ≤ fb.size.area * fb.format.bytesPerPixel := Nat.not_le.mpr hneeded
  rw [acquire, if_neg hsize, if_neg hword, hfile]
  rfl

/-- A file that is long enough is judged by its bytes. -/
theorem acquire_of_long (h : fb.needed ≤ b.size) :
    fb.acquire t =
      if Bytes.anyNonzero b fb.needed
        then Frame.ofBytes fb.size (Frame.tabulateBytes fb.size (fb.shown b))
      else fb.unavailable "framebuffer is blank" := by
  have hnonempty : ¬ b.size = 0 := Nat.ne_of_gt (Nat.lt_of_lt_of_le (needed_pos hpos) h)
  rw [acquire_of_file hpos hneeded hfile, if_neg hnonempty, if_neg (Nat.not_lt.mpr h)]

/-- A picture that is shown is captured. -/
theorem acquire_of_shows (h : fb.Shows b) :
    ∃ f, fb.acquire t = .ok f ∧ f.size = fb.size
      ∧ ∀ x < fb.size.width, ∀ y < fb.size.height, f.pixel? x y = some (fb.shown b x y) := by
  rw [acquire_of_long hpos hneeded hfile h.1, if_pos (Bytes.anyNonzero_iff.mpr h.2)]
  exact Frame.ofBytes_tabulateBytes hpos (Nat.lt_of_le_of_lt fb.byteLength_le hneeded)

/-- An empty file is not checked, and touched if memory has room for the picture. -/
theorem acquire_of_empty (hempty : b.size = 0) (hroom : fb.needed ≤ memoryLimit) :
    fb.acquire t = fault := by
  have hlength : ¬ Frame.bufferLimit ≤ fb.needed :=
    Nat.not_le.mpr (Nat.lt_of_le_of_lt hroom (by decide))
  rw [acquire_of_file hpos hneeded hfile, if_pos hempty, acquireEmpty, if_neg hlength,
    if_neg (Nat.not_lt.mpr hroom)]

/-- A file without a picture is refused, unless it is empty and gets touched. -/
theorem acquire_of_not_shows (h : ¬ fb.Shows b) (hempty : b.size = 0 → memoryLimit < fb.needed) :
    ∃ reason, fb.acquire t = report (.sourceUnavailable fb.path reason) := by
  rw [acquire_of_file hpos hneeded hfile]
  split
  · -- an empty file: too long to be mapped, or else no room for it
    rename_i hzero
    rw [acquireEmpty]
    split
    · exact ⟨_, rfl⟩
    · rw [if_pos (hempty hzero)]
      exact ⟨_, rfl⟩
  · split
    · exact ⟨_, rfl⟩
    · rename_i hlong
      have hblank : ¬ Bytes.anyNonzero b fb.needed = true := fun hany =>
        h ⟨Nat.not_lt.mp hlong, Bytes.anyNonzero_iff.mp hany⟩
      rw [if_neg hblank]
      exact ⟨_, rfl⟩

theorem acquire_eq_ok_iff : (∃ f, fb.acquire t = .ok f) ↔ fb.Shows b := by
  constructor
  · rintro ⟨f, hf⟩
    by_contra hnot
    by_cases hempty : b.size = 0 → memoryLimit < fb.needed
    · obtain ⟨reason, hreason⟩ := acquire_of_not_shows hpos hneeded hfile hnot hempty
      rw [hreason] at hf
      cases hf
    · obtain ⟨hzero, hroom⟩ := Classical.not_imp.mp hempty
      rw [acquire_of_empty hpos hneeded hfile hzero (Nat.not_lt.mp hroom)] at hf
      cases hf
  · intro h
    obtain ⟨f, hf, -⟩ := acquire_of_shows hpos hneeded hfile h
    exact ⟨f, hf⟩

/-- The bytes after the picture do not matter. -/
theorem acquire_congr {later : FileTree} (hlater : later.lookup fb.path = .ok (.file c heldLater))
    (hb : fb.needed ≤ b.size) (hc : fb.needed ≤ c.size)
    (h : ∀ i < fb.needed, Bytes.read b i = Bytes.read c i) :
    fb.acquire later = fb.acquire t := by
  have hany : Bytes.anyNonzero c fb.needed = Bytes.anyNonzero b fb.needed := by
    rw [Bool.eq_iff_iff, Bytes.anyNonzero_iff, Bytes.anyNonzero_iff]
    exact exists_congr fun i => and_congr_right fun hi => by rw [h i hi]
  have hpixels : Frame.tabulateBytes fb.size (fb.shown c)
      = Frame.tabulateBytes fb.size (fb.shown b) :=
    Frame.tabulateBytes_congr fun x hx y hy =>
      (PixelFormat.pixel_congr (Size.place_lt hx hy) h).symm
  rw [acquire_of_long hpos hneeded hlater hc, acquire_of_long hpos hneeded hfile hb, hany, hpixels]

end File

/-- A provider without a picture is passed over for the next one. -/
theorem acquire_chain_of_unavailable {before later : List Source} {s : Source} {reason : String}
    (h : fb.acquire t = report (.sourceUnavailable fb.path reason))
    (hbefore : ∀ p ∈ before, p.refuses t = true) (hs : s.refuses t = false) :
    ((Source.chain (before ++ .framebuffer fb :: s :: later)).acquire t).result
      = (s.acquire t).result := by
  have hrefusal : (Source.framebuffer fb).refusal? t = some (.sourceUnavailable fb.path reason) :=
    Source.refusal?_eq_some_iff.mpr ⟨by rw [Source.acquire, h], rfl⟩
  have hrefuses : (Source.framebuffer fb).refuses t = true := by
    rw [Source.refuses, hrefusal, Option.isSome_some]
  have hasked : ∀ p ∈ before ++ [.framebuffer fb], p.refuses t = true := by
    intro p hp
    rw [List.mem_append, List.mem_singleton] at hp
    obtain hp | rfl := hp
    · exact hbefore p hp
    · exact hrefuses
  rw [List.append_cons, Source.acquire_chain_append later hasked hs]

/-- For a framebuffer with pixels whose bytes can be counted in a 64-bit word,
and any file.  There is a frame exactly if the file has the bytes of the picture
and one of them is not zero.  The frame has the size of the framebuffer, and
every pixel is the one written at its place, red first for three bytes and blue
first for four.  Bytes after the picture never matter.  In all other cases the
picture is unavailable, and a chain asks the next provider, except for an empty
file while memory has room for the picture: to read that is a fault. -/
theorem acquire_regular_file (hpos : fb.size.positive = true) (hneeded : fb.needed < wordLimit)
    (hfile : t.lookup fb.path = .ok (.file b held)) :
    ((∃ f, fb.acquire t = .ok f) ↔ fb.needed ≤ b.size ∧ ∃ i < fb.needed, Bytes.read b i ≠ 0)
    ∧ (∀ f, fb.acquire t = .ok f → f.size = fb.size ∧ ∀ x < fb.size.width, ∀ y < fb.size.height,
        let i := y * fb.size.width + x
        (fb.format = .rgb24 →
          f.pixel? x y = some ⟨Bytes.read b (3 * i), Bytes.read b (3 * i + 1),
            Bytes.read b (3 * i + 2)⟩)
        ∧ (fb.format = .bgra32 →
          f.pixel? x y = some ⟨Bytes.read b (4 * i + 2), Bytes.read b (4 * i + 1),
            Bytes.read b (4 * i)⟩))
    ∧ (∀ (later : FileTree) (c : ByteArray) (heldLater : Bool),
        later.lookup fb.path = .ok (.file c heldLater) →
        fb.needed ≤ b.size → fb.needed ≤ c.size →
        (∀ i < fb.needed, Bytes.read b i = Bytes.read c i) →
        fb.acquire later = fb.acquire t)
    ∧ ((∀ f, fb.acquire t ≠ .ok f) → (b.size = 0 → memoryLimit < fb.needed) →
        (∃ reason, fb.acquire t = report (.sourceUnavailable fb.path reason))
        ∧ ∀ before s later, (∀ p ∈ before, p.refuses t = true) → s.refuses t = false →
          ((Source.chain (before ++ .framebuffer fb :: s :: later)).acquire t).result
            = (s.acquire t).result)
    ∧ (b.size = 0 → fb.needed ≤ memoryLimit → fb.acquire t = fault) := by
  have hok := acquire_eq_ok_iff hpos hneeded hfile
  refine ⟨hok, fun f hf => ?_,
    fun later c heldLater hlater => acquire_congr hpos hneeded hfile hlater,
    fun hnone hempty => ?_, acquire_of_empty hpos hneeded hfile⟩
  · obtain ⟨g, hg, hsize, hpixel⟩ := acquire_of_shows hpos hneeded hfile (hok.mp ⟨f, hf⟩)
    rw [hg] at hf
    cases hf
    refine ⟨hsize, fun x hx y hy => ⟨fun hformat => ?_, fun hformat => ?_⟩⟩
    · rw [hpixel x hx y hy, shown, hformat]
      rfl
    · rw [hpixel x hx y hy, shown, hformat]
      rfl
  · have hnot : ¬ fb.Shows b := fun hshows => (hok.mpr hshows).elim hnone
    obtain ⟨reason, hreason⟩ := acquire_of_not_shows hpos hneeded hfile hnot hempty
    exact ⟨⟨reason, hreason⟩, fun before s later => acquire_chain_of_unavailable hreason⟩

/-- Two pixels of four bytes each, blue first. -/
theorem acquire_regular_file_swizzled :
    let fb : Framebuffer := ⟨"fb", ⟨2, 1, by decide, by decide⟩, .bgra32⟩
    let t : FileTree := { entries := [(["fb"], .file ⟨#[30, 20, 10, 255, 3, 2, 1, 0]⟩)] }
    ∃ f, fb.acquire t = .ok f ∧ f.pixel? 0 0 = some ⟨10, 20, 30⟩
      ∧ f.pixel? 1 0 = some ⟨1, 2, 3⟩ := by
  intro fb t
  have hpos : fb.size.positive = true := by decide
  have hneeded : fb.needed < wordLimit := by decide
  have hfile : t.lookup fb.path = .ok (.file ⟨#[30, 20, 10, 255, 3, 2, 1, 0]⟩) := by decide +kernel
  obtain ⟨hok, hpixels, -⟩ := acquire_regular_file hpos hneeded hfile
  obtain ⟨f, hf⟩ := hok.mpr ⟨by decide, 0, by decide, by decide⟩
  exact ⟨f, hf, ((hpixels f hf).2 0 (by decide) 0 (by decide)).2 rfl,
    ((hpixels f hf).2 1 (by decide) 0 (by decide)).2 rfl⟩

/-- An empty file of a framebuffer with one pixel, and a test pattern that is
not asked. -/
theorem acquire_touches_empty_file :
    let fb : Framebuffer := ⟨"e", ⟨1, 1, by decide, by decide⟩, .rgb24⟩
    let fallback : Source := .pattern ⟨⟨2, 1, by decide, by decide⟩, 0⟩
    let t : FileTree := { entries := [(["e"], .file ByteArray.empty)] }
    fb.size.positive = true ∧ fb.needed < wordLimit ∧ t.lookup fb.path = .ok (.file ByteArray.empty)
      ∧ fb.acquire t = fault
      ∧ ((Source.chain [.framebuffer fb, fallback]).acquire t).result = some fault := by
  decide +kernel

end Framebuffer

end Scanout
