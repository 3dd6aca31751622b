import Mathlib.Algebra.Order.Floor.Div
import Scanout.Proofs.WideStrides

/-!
# Strides on a boundary

A device that aligns its rows takes the least multiple of the alignment that
holds a row (`isLeast_blocks`), and then whole blocks of padding.  The number of
blocks is a quotient rounded up, so it does not fall when rows get longer
(`blocks_mono`), and the stride does not fall when rows get longer or blocks are
added (`alignedStride_mono`).

The stride is put together from two products and a sum.  Each may leave its word
by itself, but neither product can do so unless the stride does.  So the
computation faults exactly if the exact stride is no word, or there is no
boundary to align to (`alignedStride_eq_fault_iff`).

A stride of this kind always holds a row.  Whatever candidate space its rule
belongs to, it is dropped for the size of the frame only
(`Candidates.mem_stridesFor_aligned_iff`).
-/

namespace Scanout

variable {width alignment extraBlocks n m a : Nat}

/-! ## Blocks -/

/-- Counting blocks is dividing and rounding up. -/
theorem blocks_eq_ceilDiv (n a : Nat) : blocks n a = n ⌈/⌉ a :=
  (Nat.ceilDiv_eq_add_pred_div n a).symm

theorem blocks_mono (h : n ≤ m) (a : Nat) : blocks n a ≤ blocks m a := by
  unfold blocks
  exact Nat.div_le_div_right (by omega)

/-- The blocks together are the least multiple of their length that holds all bytes. -/
theorem isLeast_blocks (n : Nat) (ha : 0 < a) : IsLeast {m | a ∣ m ∧ n ≤ m} (blocks n a * a) := by
  rw [blocks_eq_ceilDiv, Nat.mul_comm]
  refine ⟨⟨Nat.dvd_mul_right _ _, le_smul_ceilDiv ha⟩, ?_⟩
  rintro m ⟨⟨k, rfl⟩, hm⟩
  exact Nat.mul_le_mul_left a ((ceilDiv_le_iff_le_mul ha).mpr hm)

/-! ## Strides -/

/-- Only the exact stride counts, not the parts that it is put together from. -/
theorem alignedStride_eq_fault_iff :
    alignedStride width alignment extraBlocks = fault ↔ alignment = 0
      ∨ wordLimit ≤ blocks (3 * width) alignment * alignment + extraBlocks * alignment := by
  constructor
  · intro h
    by_contra hnot
    obtain ⟨ha, hword⟩ := not_or.mp hnot
    rw [alignedStride_eq_ok_iff.mpr ⟨ha, Nat.not_le.mp hword, rfl⟩] at h
    cases h
  · intro h
    refine (yieldsOrFaults_alignedStride width alignment extraBlocks).eq_fault fun n hn => ?_
    obtain ⟨ha, hword, -⟩ := alignedStride_eq_ok_iff.mp hn
    exact h.elim ha (Nat.not_le.mpr hword)

/-- A narrower row with fewer blocks after it has a stride as well, and it is
not longer. -/
theorem alignedStride_mono {narrower fewer : Nat}
    (h : alignedStride width alignment extraBlocks = .ok n) (hwidth : narrower ≤ width)
    (hblocks : fewer ≤ extraBlocks) :
    ∃ m ≤ n, alignedStride narrower alignment fewer = .ok m := by
  obtain ⟨ha, hword, rfl⟩ := alignedStride_eq_ok_iff.mp h
  have hrow := Nat.mul_le_mul_right alignment (blocks_mono (Nat.mul_le_mul_left 3 hwidth) alignment)
  have hextra := Nat.mul_le_mul_right alignment hblocks
  have hle := Nat.add_le_add hrow hextra
  exact ⟨_, hle, alignedStride_eq_ok_iff.mpr ⟨ha, Nat.lt_of_le_of_lt hle hword, rfl⟩⟩

theorem row_le_alignedStride (h : alignedStride width alignment extraBlocks = .ok n) :
    3 * width ≤ n := by
  obtain ⟨ha, -, rfl⟩ := alignedStride_eq_ok_iff.mp h
  exact Nat.le_add_right_of_le (isLeast_blocks _ (Nat.pos_of_ne_zero ha)).1.2

/-! ## Candidates -/

namespace Candidates

variable {c : Candidates} {size : Size} {strides : List Nat}

/-- A size is tried with the strides of the rules, those that its rows and its
frame allow. -/
theorem mem_stridesFor_iff (h : c.stridesFor size = .ok strides) :
    n ∈ strides ↔ (∃ rule ∈ c.strides, rule.isDegenerate = false ∧ rule.resolve size.width = .ok n)
      ∧ 3 * size.width ≤ n ∧ n * size.height ≤ maxBufferLength := by
  obtain ⟨all, hall, h⟩ := bind_eq_ok.mp h
  cases h
  rw [mem_firsts, List.mem_filter, mem_mapM_iff hall, holds, Bool.and_eq_true, decide_eq_true_iff,
    frameFits_iff]
  simp only [List.mem_filter, Bool.not_eq_true', and_assoc]

/-- A stride on a boundary is dropped if it makes the frame too large, and for
no other reason. -/
theorem mem_stridesFor_aligned_iff (h : c.stridesFor size = .ok strides)
    (hrule : .aligned alignment extraBlocks ∈ c.strides)
    (hn : alignedStride size.width alignment extraBlocks = .ok n) :
    n ∈ strides ↔ n * size.height ≤ maxBufferLength := by
  have hproper : (StrideRule.aligned alignment extraBlocks).isDegenerate = false := by
    simpa [StrideRule.isDegenerate] using (alignedStride_eq_ok_iff.mp hn).1
  rw [mem_stridesFor_iff h]
  exact ⟨fun hmem => hmem.2.2, fun hfits =>
    ⟨⟨_, hrule, hproper, hn⟩, row_le_alignedStride hn, hfits⟩⟩

end Candidates

/-- The stride for a width, an alignment and a number of further blocks.  There
is none exactly if the alignment is zero or the exact stride is no 64-bit word.
Otherwise it is a multiple of the alignment; without the further blocks it is
the least one that holds a row; and narrower rows and fewer blocks have strides
that are not longer.  In a candidate space it is tried for every size of that
width, unless it makes the frame too large. -/
theorem alignedStride_fits (width alignment extraBlocks : Nat) :
    let exact := 3 * width ⌈/⌉ alignment * alignment + extraBlocks * alignment
    (alignedStride width alignment extraBlocks = fault ↔ alignment = 0 ∨ wordLimit ≤ exact)
      ∧ (alignment ≠ 0 → exact < wordLimit →
          alignedStride width alignment extraBlocks = .ok exact ∧ alignment ∣ exact
          ∧ IsLeast {m | alignment ∣ m ∧ 3 * width ≤ m} (exact - extraBlocks * alignment)
          ∧ (∀ narrower ≤ width, ∀ fewer ≤ extraBlocks,
              ∃ m ≤ exact, alignedStride narrower alignment fewer = .ok m)
          ∧ ∀ (c : Candidates) (size : Size) (strides : List Nat), size.width = width →
              .aligned alignment extraBlocks ∈ c.strides → c.stridesFor size = .ok strides →
              (exact ∈ strides ↔ exact * size.height ≤ maxBufferLength)) := by
  rw [← blocks_eq_ceilDiv]
  intro exact
  refine ⟨alignedStride_eq_fault_iff, fun ha hword => ?_⟩
  have hstride : alignedStride width alignment extraBlocks = .ok exact :=
    alignedStride_eq_ok_iff.mpr ⟨ha, hword, rfl⟩
  have hleast := isLeast_blocks (3 * width) (Nat.pos_of_ne_zero ha)
  refine ⟨hstride, ?_, ?_, fun narrower hwidth fewer hblocks =>
    alignedStride_mono hstride hwidth hblocks, ?_⟩
  · exact Nat.dvd_add hleast.1.1 (Nat.dvd_mul_left _ _)
  · rw [Nat.add_sub_cancel]
    exact hleast
  · rintro c size strides rfl hrule hstrides
    exact Candidates.mem_stridesFor_aligned_iff hstrides hrule hstride

/-- Rows of 2400 bytes on boundaries of 256, with a block more. -/
theorem alignedStride_fits_svga :
    alignedStride 800 256 1 = .ok 2816 ∧ IsLeast {m | 256 ∣ m ∧ 3 * 800 ≤ m} 2560
      ∧ (∃ m ≤ 2816, alignedStride 640 256 0 = .ok m)
      ∧ 2816 ∈ (⟨[.svga], [.exact], [.aligned 256 1], [.rgb]⟩ : Candidates).kept .svga := by
  obtain ⟨-, hfits⟩ := alignedStride_fits 800 256 1
  obtain ⟨hstride, -, hleast, hshorter, htried⟩ := hfits (by decide) (by decide)
  refine ⟨hstride, hleast, hshorter 640 (by decide) 0 (by decide), ?_⟩
  exact (htried ⟨[.svga], [.exact], [.aligned 256 1], [.rgb]⟩ .svga _ rfl (by decide)
    (by decide +kernel)).mpr
    (by decide)

end Scanout
