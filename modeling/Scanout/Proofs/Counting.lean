import Mathlib.Algebra.BigOperators.Ring.List
import Mathlib.Algebra.Ring.Nat
import Scanout.Proofs.Enumeration

/-!
# Counting a candidate space

`Candidates.length` counts a space without listing it: it adds up the strides of
the sizes and multiplies by the lengths of two axes.  The list is nested four
deep, and its length is the same number (`Candidates.length_nest`), however
often an axis repeats a candidate and however many strides are dropped or
merged.

The count is computed in 64-bit words.  Sums and products of words are words if
their exact values are (`foldlM_word`, `word_bind_mul`), since the axes of a
space that passes the check are not empty.  So the count is the length of the
list, wherever that is a word, as the length of every list in memory is.
-/

namespace Scanout

/-! ## Arithmetic in words -/

theorem word_of_lt {n : Nat} (h : n < wordLimit) : word n = .ok n := if_pos h

theorem word_of_le {n : Nat} (h : wordLimit ≤ n) : word n = fault := if_neg (Nat.not_lt_of_le h)

/-- A sum that leaves its word does not come back, so only the whole sum counts. -/
theorem foldlM_word (counts : List Nat) {total : Nat} (h : total < wordLimit) :
    counts.foldlM (fun total count => word (total + count)) total = word (total + counts.sum) := by
  induction counts generalizing total with
  | nil => simp [word_of_lt h, pure, Except.pure]
  | cons count counts ih =>
      rw [List.foldlM_cons, List.sum_cons, ← Nat.add_assoc]
      by_cases hword : total + count < wordLimit
      · rw [word_of_lt hword]
        exact ih hword
      · have hsum : wordLimit ≤ total + count + counts.sum := by omega
        rw [word_of_le (Nat.le_of_not_lt hword), word_of_le hsum]
        rfl

/-- A product that leaves its word does not come back when a positive factor follows. -/
theorem word_bind_mul {n k : Nat} (hk : 0 < k) :
    (word n >>= fun m => word (m * k)) = word (n * k) := by
  by_cases hword : n < wordLimit
  · rw [word_of_lt hword]
    rfl
  · have hproduct : wordLimit ≤ n * k :=
      Nat.le_trans (Nat.le_of_not_lt hword) (Nat.le_mul_of_pos_right n hk)
    rw [word_of_le (Nat.le_of_not_lt hword), word_of_le hproduct]
    rfl

namespace Candidates

variable {c : Candidates} {ls : List Layout}

/-! ## The length of the list -/

theorem length_nest (c : Candidates) (strides : Size → List Nat) : (c.nest strides).length
    = (c.sizes.map fun size => (strides size).length).sum * c.fits.length * c.orders.length := by
  have hsize : ∀ size, (c.fits.flatMap fun fit => (strides size).flatMap fun stride =>
      c.orders.map fun order => (⟨size, stride, order, fit⟩ : Layout)).length
      = (strides size).length * (c.fits.length * c.orders.length) := by
    intro size
    simp only [List.length_flatMap, List.length_map, List.map_const', List.sum_replicate_nat,
      Nat.mul_left_comm]
  simp only [nest, List.length_flatMap (l := c.sizes), hsize, List.sum_map_mul_right, Nat.mul_assoc]

theorem emptyAxis?_eq_none_iff :
    c.emptyAxis? = none ↔ c.sizes ≠ [] ∧ c.fits ≠ [] ∧ c.strides ≠ [] ∧ c.orders ≠ [] := by
  simp only [emptyAxis?, List.isEmpty_iff]
  grind

/-- The axes of a space that passes the check are not empty. -/
theorem axes_of_check (h : c.check = .ok ()) : 0 < c.fits.length ∧ 0 < c.orders.length := by
  unfold check at h
  cases haxis : c.emptyAxis? with
  | some axis =>
      rw [haxis] at h
      cases h
  | none =>
      obtain ⟨-, hfits, -, horders⟩ := emptyAxis?_eq_none_iff.mp haxis
      exact ⟨List.length_pos_iff.mpr hfits, List.length_pos_iff.mpr horders⟩

/-! ## The count -/

theorem length_eq_word (hc : c.check = .ok ()) (hw : c.InWord) :
    c.length = word (c.nest c.kept).length := by
  obtain ⟨hfits, horders⟩ := axes_of_check hc
  have hcounts : c.sizes.mapM (fun size => return (← c.stridesFor size).length)
      = .ok (c.sizes.map fun size => (c.kept size).length) := by
    refine mapM_eq_ok_map fun size hs => ?_
    rw [stridesFor_eq_ok hc hw hs]
    rfl
  have hsum :=
    foldlM_word (c.sizes.map fun size => (c.kept size).length) (show 0 < wordLimit by decide)
  calc c.length
      = (word (c.sizes.map fun size => (c.kept size).length).sum
          >>= fun strides => word (strides * c.fits.length) >>= fun fitted =>
            word (fitted * c.orders.length)) := by
        rw [length, hcounts, ← Nat.zero_add (List.sum _), ← hsum]
        rfl
    _ = (word (c.sizes.map fun size => (c.kept size).length).sum
          >>= fun strides => word (strides * c.fits.length)) >>= fun fitted =>
            word (fitted * c.orders.length) :=
        (bind_assoc ..).symm
    _ = word ((c.sizes.map fun size => (c.kept size).length).sum * c.fits.length
          * c.orders.length) := by
        rw [word_bind_mul hfits, word_bind_mul horders]
    _ = word (c.nest c.kept).length := by rw [length_nest]

theorem isEmpty_of_length (h : c.length = word ls.length) :
    c.isEmpty = (word ls.length).map fun _ => ls.isEmpty := by
  rw [isEmpty, h]
  by_cases hword : ls.length < wordLimit
  · rw [word_of_lt hword]
    cases ls with
    | nil => rfl
    | cons l ls => rfl
  · rw [word_of_le (Nat.le_of_not_lt hword)]
    rfl

/-- A space is counted without listing it.  The count is the length of its list,
as a 64-bit word, and the space counts as empty exactly if the list is. -/
theorem length_of_enumerate (h : c.enumerate = .ok ls) :
    c.length = word ls.length
      ∧ c.isEmpty = (word ls.length).map (fun _ => ls.isEmpty)
      ∧ (ls.length < wordLimit → c.length = .ok ls.length ∧ c.isEmpty = .ok ls.isEmpty) := by
  have hc := check_of_enumerate h
  have hw := inWord_of_enumerate h
  obtain rfl : c.nest c.kept = ls := Except.ok.inj ((enumerate_eq_ok hc hw).symm.trans h)
  have hlength := length_eq_word hc hw
  have hempty := isEmpty_of_length hlength
  refine ⟨hlength, hempty, fun hword => ?_⟩
  rw [word_of_lt hword] at hlength hempty
  exact ⟨hlength, hempty⟩

/-- A size that is there twice, one that is too high for every stride, and two
rules that come to the same stride. -/
def repeatedSpace : Candidates where
  sizes := [.wrap 2 1, .wrap 2 4294967295, .wrap 2 1]
  fits := [.exact, .exact]
  strides := [.bytes 8, .aligned 8 0]
  orders := [.rgb]

theorem length_of_enumerate_repeated :
    repeatedSpace.enumerate = .ok (List.replicate 4 ⟨.wrap 2 1, 8, .rgb, .exact⟩)
      ∧ repeatedSpace.length = .ok 4
      ∧ repeatedSpace.isEmpty = .ok false := by
  have henumerate : repeatedSpace.enumerate
      = .ok (List.replicate 4 ⟨.wrap 2 1, 8, .rgb, .exact⟩) := by
    decide +kernel
  obtain ⟨-, -, hcount⟩ := length_of_enumerate henumerate
  obtain ⟨hlength, hempty⟩ := hcount (by decide)
  exact ⟨henumerate, hlength, hempty⟩

end Candidates

end Scanout
