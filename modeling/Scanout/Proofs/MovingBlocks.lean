import Scanout.Proofs.ByteRows
import Scanout.Proofs.WideStrides
import Scanout.Source.Pattern

/-!
# What a test pattern shows

A frame of a pattern is determined by its size and by the tick, read with a sign
(`TestPattern.Shows`): a pixel has the colour of the highest block that covers
it, and is black where none does.  A tick may be negative.  Rows, columns and
colours are remainders that are never negative, so the blocks go around the
edges in both directions.

The sums are computed before the remainders are taken.  The largest of them
moves the colour of the last block, and it leaves its word at the last ticks
before the sign changes (`tickLimit`).  At those nothing can be drawn, whatever
the size is (`render_eq_fault_of_le`).  Otherwise only a size that no buffer
holds is a fault.
-/

namespace Scanout

namespace TestPattern

variable {size : Size} {tick : Nat} {t : Int} {i n x y : Nat}

/-! ## Blocks -/

/-- The first tick at which the colour of the last block leaves its word. -/
def tickLimit : Int := 9223372036854775208

/-- Block `i` at a tick at which its sums stay in their word. -/
def blockAt (size : Size) (t : Int) (i : Nat) : Block :=
  ⟨(t + (100 * i : Nat)) % (max size.width 1 : Nat),
    (t + (50 * i : Nat)) % (max size.height 1 : Nat),
    ⟨lowByte (t + (50 * i : Nat)), lowByte (t + (100 * i : Nat)), lowByte (t + (150 * i : Nat))⟩⟩

theorem yieldsOrFaults_shift (t : Int) (k : Nat) : YieldsOrFaults (shift t k) := by
  unfold shift
  split
  · exact .ok _
  · exact .inr rfl

theorem yieldsOrFaults_block (size : Size) (t : Int) (i : Nat) : YieldsOrFaults (block size t i) :=
  (yieldsOrFaults_shift t _).bind fun _ => (yieldsOrFaults_shift t _).bind fun _ =>
    (yieldsOrFaults_shift t _).bind fun _ => .ok _

/-- Of the three sums of a block the one for its blue channel is the largest. -/
theorem block_eq (size : Size) (t : Int) (i : Nat) :
    block size t i
      = if t + (150 * i : Nat) < 9223372036854775808 then .ok (blockAt size t i) else fault := by
  by_cases hblue : t + (150 * i : Nat) < 9223372036854775808
  · have hshift : ∀ k ≤ 150 * i, shift t k = .ok (t + k) := fun k hk => if_pos (by omega)
    rw [if_pos hblue, block, hshift (100 * i) (by omega), hshift (50 * i) (by omega),
      hshift (150 * i) (by omega)]
    rfl
  · have hshift : shift t (150 * i) = fault := if_neg hblue
    rw [if_neg hblue]
    refine (yieldsOrFaults_block size t i).eq_fault fun b hb => ?_
    obtain ⟨column, -, hb⟩ := bind_eq_ok.mp hb
    obtain ⟨row, -, hb⟩ := bind_eq_ok.mp hb
    rw [hshift] at hb
    cases hb

/-- Below the limit every block can be computed. -/
theorem mapM_block_eq_ok (size : Size) (ht : t < tickLimit) :
    (List.range blockCount).mapM (block size t)
      = .ok ((List.range blockCount).map (blockAt size t)) := by
  refine mapM_eq_ok_map fun i hi => ?_
  have hi5 : i < 5 := List.mem_range.mp hi
  have ht' : t < 9223372036854775208 := ht
  rw [block_eq, if_pos (by omega)]

/-- From the limit on the last block cannot be computed. -/
theorem mapM_block_eq_fault (size : Size) (ht : tickLimit ≤ t) :
    (List.range blockCount).mapM (block size t) = fault := by
  refine (YieldsOrFaults.mapM (yieldsOrFaults_block size t)).eq_fault fun bs hbs => ?_
  obtain ⟨b, hb⟩ := exists_of_mapM_eq_ok hbs (List.mem_range.mpr (by decide : 4 < blockCount))
  have ht' : 9223372036854775208 ≤ t := ht
  rw [block_eq, if_neg (by omega)] at hb
  cases hb

/-! ## Overlaps -/

section Overlaps

variable {b : Nat → Block}

theorem colourAt_range_succ (b : Nat → Block) (n x y : Nat) :
    colourAt x y ((List.range (n + 1)).map b).reverse
      = if (b n).covers x y then (b n).colour else colourAt x y ((List.range n).map b).reverse := by
  rw [List.range_succ, List.map_append, List.reverse_append]
  rfl

/-- Where blocks overlap, the one with the highest number is seen. -/
theorem colourAt_of_topmost (hi : i < n) (hcovers : (b i).covers x y = true)
    (htop : ∀ j < n, i < j → ¬ (b j).covers x y = true) :
    colourAt x y ((List.range n).map b).reverse = (b i).colour := by
  induction n with
  | zero => exact absurd hi (Nat.not_lt_zero i)
  | succ n ih =>
      rw [colourAt_range_succ]
      cases Nat.lt_or_eq_of_le (Nat.le_of_lt_succ hi) with
      | inl hlt =>
          rw [if_neg (htop n (Nat.lt_succ_self n) hlt),
            ih hlt fun j hj => htop j (Nat.lt_succ_of_lt hj)]
      | inr heq => rw [← heq, if_pos hcovers]

theorem colourAt_of_uncovered (h : ∀ i < n, ¬ (b i).covers x y = true) :
    colourAt x y ((List.range n).map b).reverse = .black := by
  induction n with
  | zero => rfl
  | succ n ih =>
      rw [colourAt_range_succ, if_neg (h n (Nat.lt_succ_self n)),
        ih fun i hi => h i (Nat.lt_succ_of_lt hi)]

end Overlaps

/-! ## Frames -/

/-- A pixel of a picture lies within block `i` at a tick, which is at most 30
columns and 30 rows from its centre. -/
def Covers (size : Size) (t : Int) (i x y : Nat) : Prop :=
  ((x : Int) - (t + 100 * i) % size.width).natAbs ≤ 30
    ∧ ((y : Int) - (t + 50 * i) % size.height).natAbs ≤ 30

instance : Decidable (Covers size t i x y) := inferInstanceAs (Decidable (_ ∧ _))

theorem covers_blockAt_iff (hpos : size.positive = true) :
    (blockAt size t i).covers x y = true ↔ Covers size t i x y := by
  obtain ⟨hwidth, hheight⟩ := size.positive_iff.mp hpos
  rw [blockAt, Block.covers, Bool.and_eq_true, decide_eq_true_iff, decide_eq_true_iff,
    Nat.max_eq_left hwidth, Nat.max_eq_left hheight, Covers, Int.natCast_mul, Int.natCast_mul]
  rfl

/-- A byte is a remainder, of a negative number as well. -/
theorem toNat_lowByte (m : Int) : ((lowByte m).toNat : Int) = m % 256 := by
  have hrem : 0 ≤ m % 256 ∧ m % 256 < 256 :=
    ⟨Int.emod_nonneg m (by decide), Int.emod_lt_of_pos m (by decide)⟩
  rw [lowByte, UInt8.toNat_ofNat', Nat.mod_eq_of_lt (by omega), Int.toNat_of_nonneg hrem.1]

/-- The frame shows the moving blocks as they stand at a tick. -/
structure Shows (f : Frame) (size : Size) (t : Int) : Prop where
  size_eq : f.size = size
  /-- A pixel has the colour of the highest block that covers it. -/
  topmost : ∀ x < size.width, ∀ y < size.height, ∀ i < 5, Covers size t i x y →
    (∀ j < 5, i < j → ¬ Covers size t j x y) →
    ∃ p, f.pixel? x y = some p ∧ (p.red.toNat : Int) = (t + 50 * i) % 256
      ∧ (p.green.toNat : Int) = (t + 100 * i) % 256 ∧ (p.blue.toNat : Int) = (t + 150 * i) % 256
  /-- A pixel that no block covers is black. -/
  ground : ∀ x < size.width, ∀ y < size.height, (∀ i < 5, ¬ Covers size t i x y) →
    f.pixel? x y = some .black

/-- The frame drawn with the blocks of a tick shows that tick. -/
theorem shows_of_pixels {f : Frame} (hpos : size.positive = true) (hsize : f.size = size)
    (hpixels : ∀ x < size.width, ∀ y < size.height,
      f.pixel? x y = some (colourAt x y ((List.range blockCount).map (blockAt size t)).reverse)) :
    Shows f size t where
  size_eq := hsize
  topmost x hx y hy i hi hcovers htop := by
    have htop' : ∀ j < blockCount, i < j → ¬ (blockAt size t j).covers x y = true :=
      fun j hj hij hcovers' => htop j hj hij ((covers_blockAt_iff hpos).mp hcovers')
    refine ⟨_, hpixels x hx y hy, ?_⟩
    rw [colourAt_of_topmost (n := blockCount) hi ((covers_blockAt_iff hpos).mpr hcovers) htop']
    exact ⟨toNat_lowByte _, toNat_lowByte _, toNat_lowByte _⟩
  ground x hx y hy hnone := by
    have hnone' : ∀ i < blockCount, ¬ (blockAt size t i).covers x y = true :=
      fun i hi hcovers => hnone i hi ((covers_blockAt_iff hpos).mp hcovers)
    rw [hpixels x hx y hy, colourAt_of_uncovered hnone']

theorem render_eq_tabulate (ht : signed tick < tickLimit) :
    render size tick
      = Frame.tabulate size fun x y =>
          colourAt x y ((List.range blockCount).map (blockAt size (signed tick))).reverse := by
  rw [render, mapM_block_eq_ok size ht]
  rfl

theorem render_eq_ok (hpos : size.positive = true) (hlength : size.byteLength < Frame.bufferLimit)
    (ht : signed tick < tickLimit) :
    ∃ f, render size tick = .ok f ∧ Shows f size (signed tick) := by
  have hword : size.byteLength < wordLimit := Nat.lt_trans hlength (by decide)
  obtain ⟨f, hf, hsize, hpixels⟩ := Frame.ofBytes_tabulateBytes
    (p := fun x y =>
      colourAt x y ((List.range blockCount).map (blockAt size (signed tick))).reverse) hpos hword
  refine ⟨f, ?_, shows_of_pixels hpos hsize hpixels⟩
  rw [render_eq_tabulate ht, Frame.tabulate, if_pos hpos, if_pos hlength, hf]

theorem render_eq_fault_of_le (ht : tickLimit ≤ signed tick) : render size tick = fault := by
  rw [render, mapM_block_eq_fault size ht]
  rfl

theorem render_eq_fault_of_oversized (hpos : size.positive = true)
    (hlength : Frame.bufferLimit ≤ size.byteLength) : render size tick = fault := by
  cases Int.lt_or_le (signed tick) tickLimit with
  | inl ht =>
      rw [render_eq_tabulate ht, Frame.tabulate, if_pos hpos, if_neg (Nat.not_lt.mpr hlength)]
  | inr ht => exact render_eq_fault_of_le ht

end TestPattern

end Scanout
