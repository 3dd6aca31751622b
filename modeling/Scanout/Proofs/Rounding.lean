import Mathlib.Algebra.Order.Field.Power
import Mathlib.Tactic.Linarith
import Mathlib.Tactic.Ring
import Scanout.Number.Double

/-!
# How far rounding moves a number

A positive number lies between the power of two that it reaches and the next
(`floorLog2_spec`), so its last bit is small against it.  Rounding to an integer
moves by at most a half (`roundHalfEven_error`), and so rounding to a double
moves a positive number by at most one part in `2 ^ 53` (`nearest_error`).  A
count below `2 ^ 53` is not moved at all (`nearest_natCast`), and the double
quotient of two such counts is their exact quotient, rounded once
(`quotient_error`).
-/

namespace Scanout.Number

variable {q : Rat}

/-! ## Powers of two -/

theorem two_zpow_pos (e : Int) : (0 : Rat) < 2 ^ e := zpow_pos (by decide) e

theorem two_zpow_natCast (n : Nat) : (2 : Rat) ^ (n : Int) = ((2 ^ n : Nat) : Rat) := by
  rw [Nat.cast_pow]
  exact zpow_natCast 2 n

theorem two_zpow_add (d e : Int) : (2 : Rat) ^ (d + e) = 2 ^ d * 2 ^ e := zpow_add₀ (by decide) d e

/-- A positive count lies between the power of two of its logarithm and the next. -/
theorem two_zpow_log2 {n : Nat} (hn : n ≠ 0) :
    (2 : Rat) ^ (n.log2 : Int) ≤ n ∧ (n : Rat) < 2 ^ ((n.log2 : Int) + 1) := by
  constructor
  · rw [two_zpow_natCast, Nat.cast_le]
    exact Nat.log2_self_le hn
  · rw [← Nat.cast_add_one, two_zpow_natCast, Nat.cast_lt]
    exact Nat.lt_log2_self

/-- A positive number lies between the power of two that it reaches and the next. -/
theorem floorLog2_spec (hq : 0 < q) : (2 : Rat) ^ floorLog2 q ≤ q ∧ q < 2 ^ (floorLog2 q + 1) := by
  have hnum : q.num.natAbs ≠ 0 := by
    rw [Ne, Int.natAbs_eq_zero, Rat.num_eq_zero]
    exact ne_of_gt hq
  obtain ⟨hnumLe, hnumLt⟩ := two_zpow_log2 hnum
  obtain ⟨hdenLe, hdenLt⟩ := two_zpow_log2 q.den_nz
  have hden : (0 : Rat) < q.den := by exact_mod_cast q.den_pos
  have hcast : (q.num.natAbs : Rat) = q.num := by
    rw [← Int.cast_natCast, Int.natAbs_of_nonneg (Rat.num_nonneg.mpr (le_of_lt hq))]
  have hvalue : q * q.den = q.num.natAbs := by rw [hcast, Rat.mul_den_eq_num]
  generalize hdiff : (q.num.natAbs.log2 : Int) - (q.den.log2 : Int) = e
  have hsum : (q.num.natAbs.log2 : Int) = e + q.den.log2 := by omega
  rw [hsum, two_zpow_add] at hnumLe
  rw [hsum, add_right_comm, two_zpow_add] at hnumLt
  rw [two_zpow_add] at hdenLt
  have hupper : q < 2 ^ (e + 1) := by
    refine lt_of_mul_lt_mul_right ?_ (le_of_lt hden)
    calc q * q.den = q.num.natAbs := hvalue
      _ < 2 ^ (e + 1) * 2 ^ (q.den.log2 : Int) := hnumLt
      _ ≤ 2 ^ (e + 1) * q.den := mul_le_mul_of_nonneg_left hdenLe (le_of_lt (two_zpow_pos _))
  have hlower : (2 : Rat) ^ (e - 1) ≤ q := by
    refine le_of_mul_le_mul_right ?_ hden
    calc (2 : Rat) ^ (e - 1) * q.den ≤ 2 ^ (e - 1) * (2 ^ (q.den.log2 : Int) * 2 ^ (1 : Int)) :=
          mul_le_mul_of_nonneg_left (le_of_lt hdenLt) (le_of_lt (two_zpow_pos _))
      _ = 2 ^ e * 2 ^ (q.den.log2 : Int) := by
          rw [mul_comm (2 ^ (q.den.log2 : Int)), ← mul_assoc, ← two_zpow_add, Int.sub_add_cancel]
      _ ≤ q.num.natAbs := hnumLe
      _ = q * q.den := hvalue.symm
  unfold floorLog2
  rw [hdiff]
  dsimp only
  split
  · rename_i hlt
    refine ⟨hlower, ?_⟩
    rwa [Int.sub_add_cancel]
  · rename_i hle
    exact ⟨le_of_not_gt hle, hupper⟩

/-! ## Rounding -/

theorem lastBit_pos (q : Rat) : 0 < lastBit q := two_zpow_pos _

/-- The last of 53 bits is small against the number. -/
theorem lastBit_le (hq : 0 < q) : 4503599627370496 * lastBit q ≤ q := by
  have hsplit : lastBit q = 2 ^ floorLog2 q * 2 ^ (-52 : Int) := by rw [← two_zpow_add]; rfl
  have hpower : (2 : Rat) ^ (-52 : Int) = 1 / 4503599627370496 := by decide +kernel
  rw [hsplit, hpower]
  linarith [(floorLog2_spec hq).1]

/-- Rounding to an integer moves by at most a half. -/
theorem roundHalfEven_error (q : Rat) :
    2 * q - 1 ≤ 2 * roundHalfEven q ∧ 2 * (roundHalfEven q : Rat) ≤ 2 * q + 1 := by
  have hle := Rat.floor_le q
  have hlt := Rat.lt_floor_add_one q
  push_cast at hlt
  unfold roundHalfEven
  split
  · rename_i hup
    have hhalf : 1 ≤ 2 * (q - q.floor) := hup.elim le_of_lt fun h => le_of_eq h.1.symm
    push_cast
    constructor
    · linarith
    · linarith
  · rename_i hdown
    have hhalf : 2 * (q - q.floor) ≤ 1 := le_of_not_gt fun h => hdown (.inl h)
    constructor
    · linarith
    · linarith

/-- Rounding to a double moves a positive number by at most one part in `2 ^ 53`. -/
theorem nearest_error (hq : 0 < q) :
    q - q / 9007199254740992 ≤ nearest q ∧ nearest q ≤ q + q / 9007199254740992 := by
  have hbit := lastBit_pos q
  have hsmall := lastBit_le hq
  obtain ⟨hlower, hupper⟩ := roundHalfEven_error (q / lastBit q)
  have hquotient : q / lastBit q * lastBit q = q := div_mul_cancel₀ q (ne_of_gt hbit)
  have hbelow := mul_le_mul_of_nonneg_right hlower (le_of_lt hbit)
  have habove := mul_le_mul_of_nonneg_right hupper (le_of_lt hbit)
  have hnearest : nearest q = roundHalfEven (q / lastBit q) * lastBit q := if_neg (not_le_of_gt hq)
  rw [hnearest]
  constructor
  · linarith
  · linarith

/-- A count of at most 53 bits is a double. -/
theorem nearest_natCast {n : Nat} (h : n < 2 ^ 53) : nearest n = n := by
  cases Nat.eq_zero_or_pos n with
  | inl hzero =>
      rw [hzero]
      rfl
  | inr hpos =>
      have hq : (0 : Rat) < n := by exact_mod_cast hpos
      obtain ⟨hreaches, -⟩ := floorLog2_spec hq
      have hsmall : floorLog2 (n : Rat) < 53 := by
        refine (zpow_lt_zpow_iff_right₀ (by decide : (1 : Rat) < 2)).mp ?_
        refine lt_of_le_of_lt hreaches ?_
        exact_mod_cast h
      -- The count is a multiple of its last bit, so there is nothing to round.
      obtain ⟨k, hk⟩ := Int.eq_ofNat_of_zero_le (show 0 ≤ 52 - floorLog2 (n : Rat) by omega)
      have hscaled : (n : Rat) / lastBit n = ((n * 2 ^ k : Nat) : Int) := by
        have hzero : 52 - floorLog2 (n : Rat) + (floorLog2 (n : Rat) - 52) = 0 := by omega
        rw [div_eq_iff (ne_of_gt (lastBit_pos _)), Int.cast_natCast, Nat.cast_mul,
          ← two_zpow_natCast, mul_assoc, lastBit, ← two_zpow_add, ← hk, hzero]
        exact (mul_one _).symm
      rw [nearest, if_neg (not_le_of_gt hq), hscaled, roundHalfEven_intCast, ← hscaled,
        div_mul_cancel₀ _ (ne_of_gt (lastBit_pos _))]

/-- The double quotient of two counts is off by at most one part in `2 ^ 53`. -/
theorem quotient_error {a b : Nat} (ha : 0 < a) (ha' : a < 2 ^ 53) (hb : 0 < b) (hb' : b < 2 ^ 53) :
    (a / b : Rat) - a / b / 9007199254740992 ≤ quotient a b
      ∧ quotient a b ≤ (a / b : Rat) + a / b / 9007199254740992 := by
  rw [quotient, nearest_natCast ha', nearest_natCast hb']
  exact nearest_error (div_pos (by exact_mod_cast ha) (by exact_mod_cast hb))

end Scanout.Number
