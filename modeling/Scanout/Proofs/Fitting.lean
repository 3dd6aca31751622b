import Scanout.Proofs.Resizing
import Scanout.Proofs.Rounding

/-!
# An aspect fit touches the canvas

An aspect fit scales both sides of a picture by the smaller of two ratios.  The
ratios, and the sides that come from them, are computed in double precision, so
each is off a little (`Number.Close`).  What is computed as the smaller ratio is
close to the smaller ratio, whichever of the two computed ones it is
(`Number.Close.min`), so nothing depends on comparing doubles that are nearly
equal.

A side is below `2 ^ 32`, and two roundings move it by less than a quarter of a
pixel.  After it is rounded to whole pixels and cut to the canvas it is less
than one pixel off the exact side (`Plan.scaledSide_near`).  The exact side that
decides the ratio is the side of the canvas, a whole number, and there is no
other whole number that near.  So one side of the picture is always that of the
canvas, and no line of the canvas stays black beside it
(`Plan.make_aspect_fits`).
-/

namespace Scanout

/-! ## Numbers off by a rounding -/

namespace Number

/-- A number off another by at most one part in `2 ^ 53`. -/
structure Close (x q : Rat) : Prop where
  ge : q - q / 9007199254740992 ≤ x
  le : x ≤ q + q / 9007199254740992

variable {x y a b q : Rat} {n : Nat}

theorem close_quotient {n m : Nat} (hn : 0 < n) (hn' : n < 2 ^ 53) (hm : 0 < m) (hm' : m < 2 ^ 53) :
    Close (quotient n m) (n / m) :=
  ⟨(quotient_error hn hn' hm hm').1, (quotient_error hn hn' hm hm').2⟩

/-- The smaller of two numbers is close to the smaller of those they are close to. -/
theorem Close.min (hx : Close x a) (hy : Close y b) (hab : a ≤ b) : Close (min x y) a := by
  have hge := hx.ge
  have hge' := hy.ge
  constructor
  · refine le_min hge ?_
    linarith
  · exact le_trans (min_le_left x y) hx.le

/-- A product with a number that is off by a rounding is off by two. -/
theorem Close.product (h : Close x a) (ha : 0 < a) (hn : 0 < n) (hn' : n < 2 ^ 53) :
    n * a - n * a / 2251799813685248 ≤ product n x
      ∧ product n x ≤ n * a + n * a / 2251799813685248 := by
  have hcount : (0 : Rat) < n := by exact_mod_cast hn
  have hexact : 0 < n * a := mul_pos hcount ha
  have hbelow := mul_le_mul_of_nonneg_left h.ge (le_of_lt hcount)
  have habove := mul_le_mul_of_nonneg_left h.le (le_of_lt hcount)
  have hpositive : 0 < n * x := by linarith
  obtain ⟨hlower, hupper⟩ := nearest_error hpositive
  rw [Number.product, nearest_natCast hn']
  constructor
  · linarith
  · linarith

/-- Rounding to a whole number moves by at most a half. -/
theorem roundHalfUp_error (hq : 0 ≤ q) :
    2 * q - 1 ≤ 2 * roundHalfUp q ∧ 2 * (roundHalfUp q : Rat) ≤ 2 * q + 1 := by
  have hle := Rat.floor_le (q + 1 / 2)
  have hlt := Rat.lt_floor_add_one (q + 1 / 2)
  have hnonneg : 0 ≤ (q + 1 / 2).floor := Rat.le_floor_iff.mpr (by push_cast; linarith)
  have hcast : (roundHalfUp q : Rat) = (q + 1 / 2).floor := by
    rw [roundHalfUp, ← Int.cast_natCast, Int.toNat_of_nonneg hnonneg]
  push_cast at hlt
  rw [hcast]
  constructor
  · linarith
  · linarith

end Number

namespace Plan

open Number

/-! ## One side -/

/-- A scaled side is less than one pixel off the exact one, if that fits into
the box. -/
theorem scaledSide_near {side box : Nat} {s a : Rat} (hside : 0 < side) (hside' : side < 4294967296)
    (hbox' : box < 4294967296) (hs : Close s a) (ha : 0 < a) (hfit : side * a ≤ box) :
    (scaledSide side box (some s) : Rat) < side * a + 1
      ∧ side * a < scaledSide side box (some s) + 1 := by
  have hexact : 0 < side * a := mul_pos (by exact_mod_cast hside) ha
  have hsmall : (box : Rat) < 4294967296 := by exact_mod_cast hbox'
  obtain ⟨hlower, hupper⟩ := hs.product ha hside (by omega)
  obtain ⟨hdown, hup⟩ := roundHalfUp_error (q := product side s) (by linarith)
  have hscaled : scaledSide side box (some s) = max 1 (min (roundHalfUp (product side s)) box) :=
    rfl
  generalize roundHalfUp (product side s) = n at hdown hup hscaled
  rw [hscaled]
  push_cast
  constructor
  · refine max_lt (by linarith) (lt_of_le_of_lt (min_le_left _ _) ?_)
    linarith
  · rw [← sub_lt_iff_lt_add]
    refine lt_max_of_lt_right (lt_min ?_ ?_)
    · linarith
    · linarith

/-!
## Both sides

`w` and `h` are the sides of a picture and `W` and `H` those of a canvas, in
whatever order, and `W / w` is the smaller ratio.
-/

section Sides

variable {w h W H : Nat} (hw : 0 < w) (hw' : w < 4294967296) (hh : 0 < h) (hh' : h < 4294967296)
  (hW : 0 < W) (hW' : W < 4294967296) (hH : 0 < H) (hH' : H < 4294967296) (hratio : W * h ≤ H * w)

include hw hw' hh hh' hW hW' hH hH' hratio

/-- The smaller of the computed ratios is close to the smaller of the exact ones. -/
theorem close_smaller : Close (min (quotient W w) (quotient H h)) (W / w) := by
  have hexact : (W / w : Rat) ≤ H / h := by
    rw [div_le_div_iff₀ (by exact_mod_cast hw) (by exact_mod_cast hh)]
    exact_mod_cast hratio
  exact (close_quotient hW (by omega) hw (by omega)).min
    (close_quotient hH (by omega) hh (by omega)) hexact

omit hH in
/-- The side that decides the ratio becomes that of the canvas, and the other is
less than one pixel off. -/
theorem scaledSides {s : Rat} (hs : Close s (W / w)) :
    scaledSide w W (some s) = W ∧ scaledSide h H (some s) * w < W * h + w
      ∧ W * h < scaledSide h H (some s) * w + w := by
  have hcount : (0 : Rat) < w := by exact_mod_cast hw
  have hpositive : (0 : Rat) < W / w := div_pos (by exact_mod_cast hW) hcount
  have hcover : (w * (W / w) : Rat) = W := mul_div_cancel₀ _ (ne_of_gt hcount)
  have hother : (h * (W / w) * w : Rat) = W * h := by
    rw [mul_assoc, div_mul_cancel₀ _ (ne_of_gt hcount), mul_comm]
  have hfit : (h * (W / w) : Rat) ≤ H := by
    refine le_of_mul_le_mul_right ?_ hcount
    rw [hother]
    exact_mod_cast hratio
  obtain ⟨hless, hmore⟩ := scaledSide_near hw hw' hW' hs hpositive (le_of_eq hcover)
  obtain ⟨hless', hmore'⟩ := scaledSide_near hh hh' hH' hs hpositive hfit
  rw [hcover] at hless hmore
  have hbelow := mul_lt_mul_of_pos_right hless' hcount
  have habove := mul_lt_mul_of_pos_right hmore' hcount
  rw [add_mul, one_mul, hother] at hbelow habove
  norm_cast at hless hmore hbelow habove
  exact ⟨by omega, hbelow, habove⟩

end Sides

/-! ## Pictures on a canvas -/

variable {input canvas : Size}

/-- What both sides of a picture are scaled by: the smaller of two computed ratios. -/
def ratio (input canvas : Size) : Rat :=
  min (quotient canvas.width input.width) (quotient canvas.height input.height)

theorem factor_eq_ratio (hi : input.positive = true) (canvas : Size) :
    factor input canvas = some (ratio input canvas) := by
  obtain ⟨hw, hh⟩ := input.positive_iff.mp hi
  have hwidth : limit input.width canvas.width = some (quotient canvas.width input.width) :=
    if_neg (Nat.ne_of_gt hw)
  have hheight : limit input.height canvas.height = some (quotient canvas.height input.height) :=
    if_neg (Nat.ne_of_gt hh)
  rw [factor, hwidth, hheight, ratio, min_comm, min_def_lt]

theorem width_fitWithin (hi : input.positive = true) (canvas : Size) :
    (fitWithin input canvas).width
      = scaledSide input.width canvas.width (some (ratio input canvas)) := by
  rw [← factor_eq_ratio hi, fitWithin]

theorem height_fitWithin (hi : input.positive = true) (canvas : Size) :
    (fitWithin input canvas).height
      = scaledSide input.height canvas.height (some (ratio input canvas)) := by
  rw [← factor_eq_ratio hi, fitWithin]

/-- A picture that is wider for its height than the canvas becomes as wide as
the canvas. -/
theorem fitWithin_of_wide (hi : input.positive = true) (hc : canvas.positive = true)
    (hratio : canvas.width * input.height ≤ canvas.height * input.width) :
    (fitWithin input canvas).width = canvas.width
      ∧ (fitWithin input canvas).height * input.width < canvas.width * input.height + input.width
      ∧ canvas.width * input.height
        < (fitWithin input canvas).height * input.width + input.width := by
  obtain ⟨hw, hh⟩ := input.positive_iff.mp hi
  obtain ⟨hW, hH⟩ := canvas.positive_iff.mp hc
  have hclose := close_smaller hw input.width_lt hh input.height_lt hW canvas.width_lt hH
    canvas.height_lt hratio
  rw [width_fitWithin hi, height_fitWithin hi]
  exact scaledSides hw input.width_lt hh input.height_lt hW canvas.width_lt canvas.height_lt hratio
    hclose

/-- A picture that is higher for its width than the canvas becomes as high as
the canvas. -/
theorem fitWithin_of_high (hi : input.positive = true) (hc : canvas.positive = true)
    (hratio : canvas.height * input.width ≤ canvas.width * input.height) :
    (fitWithin input canvas).height = canvas.height
      ∧ (fitWithin input canvas).width * input.height < canvas.height * input.width + input.height
      ∧ canvas.height * input.width
        < (fitWithin input canvas).width * input.height + input.height := by
  obtain ⟨hw, hh⟩ := input.positive_iff.mp hi
  obtain ⟨hW, hH⟩ := canvas.positive_iff.mp hc
  have hclose := close_smaller hh input.height_lt hw input.width_lt hH canvas.height_lt hW
    canvas.width_lt hratio
  rw [min_comm] at hclose
  rw [width_fitWithin hi, height_fitWithin hi]
  exact scaledSides hh input.height_lt hw input.width_lt hH canvas.height_lt canvas.width_lt hratio
    hclose

/-- A picture of the size of the canvas keeps its size. -/
theorem fitWithin_self (hc : canvas.positive = true) : fitWithin canvas canvas = canvas := by
  have hratio : canvas.width * canvas.height = canvas.height * canvas.width := Nat.mul_comm _ _
  exact Size.ext' (fitWithin_of_wide hc hc (Nat.le_of_eq hratio)).1
    (fitWithin_of_high hc hc (Nat.le_of_eq hratio.symm)).1

theorem positive_fitWithin (input canvas : Size) : (fitWithin input canvas).positive = true :=
  (Size.positive_iff _).mpr ⟨Nat.le_max_left 1 _, Nat.le_max_left 1 _⟩

end Plan

/-! ## Regions in the middle -/

/-- A region in the middle of a canvas: of two opposite margins the first is
half of what is left, rounded down, and the other is the same or one pixel
more. -/
structure Region.Centred (r : Region) (canvas : Size) : Prop where
  on : r.On canvas
  left_eq : r.left = (canvas.width - r.size.width) / 2
  top_eq : r.top = (canvas.height - r.size.height) / 2
  right : canvas.width - (r.left + r.size.width) = r.left
    ∨ canvas.width - (r.left + r.size.width) = r.left + 1
  bottom : canvas.height - (r.top + r.size.height) = r.top
    ∨ canvas.height - (r.top + r.size.height) = r.top + 1

namespace Plan

variable {size input canvas : Size} {r : Region}

theorem centred_eq_none_iff : centred size canvas = none ↔ size = canvas := by
  unfold centred
  split
  · rename_i h
    exact ⟨fun _ => h, fun _ => rfl⟩
  · rename_i h
    exact ⟨fun hnone => (nomatch hnone), fun heq => absurd heq h⟩

theorem size_of_centred (h : centred size canvas = some r) : r.size = size := by
  unfold centred at h
  split at h
  · cases h
  · cases h
    rfl

theorem isCentred_of_centred (h : centred size canvas = some r) (hw : size.width ≤ canvas.width)
    (hh : size.height ≤ canvas.height) : r.Centred canvas := by
  have hon := on_of_centred hw hh r h
  unfold centred at h
  split at h
  · cases h
  · cases h
    exact ⟨hon, rfl, rfl, by dsimp only; omega, by dsimp only; omega⟩

/-- With or without a region, an aspect fit scales its picture to the size that
was centred. -/
theorem content_centredFit (input : Size) (hc : canvas.positive = true) :
    (centredFit input canvas hc).content = fitWithin input canvas := by
  have hregion :
      (centredFit input canvas hc).region = centred (fitWithin input canvas) canvas := rfl
  rw [content, hregion]
  cases h : centred (fitWithin input canvas) canvas with
  | none => exact (centred_eq_none_iff.mp h).symm
  | some r => exact size_of_centred h

/-! ## Aspect fits -/

/-- An aspect fit of a picture on a canvas, both with pixels, has a plan.  What
the picture is scaled to has pixels and lies in the middle of the canvas, and it
is named as a region unless it covers the canvas.  It is as wide as the canvas
if the picture is wider for its height than the canvas, as high as the canvas if
it is higher for its width, and the other side is less than one pixel off the
exact ratio. -/
theorem make_aspect_fits (hi : input.positive = true) (hc : canvas.positive = true) :
    ∃ p, make input canvas .aspect = .ok p ∧ p.input = input ∧ p.canvas = canvas
      ∧ p.content.positive = true ∧ p.content.width ≤ canvas.width
      ∧ p.content.height ≤ canvas.height
      ∧ (∀ r ∈ p.region, r.size = p.content ∧ r.Centred canvas)
      ∧ (p.region = none ↔ p.content = canvas)
      ∧ (canvas.width * input.height ≤ canvas.height * input.width →
          p.content.width = canvas.width
          ∧ |(p.content.height * input.width : Int) - canvas.width * input.height| < input.width)
      ∧ (canvas.height * input.width ≤ canvas.width * input.height →
          p.content.height = canvas.height
          ∧ |(p.content.width * input.height : Int) - canvas.height * input.width|
              < input.height) := by
  obtain ⟨hW, hH⟩ := canvas.positive_iff.mp hc
  have hcontent := content_centredFit input hc
  have hwidth : (fitWithin input canvas).width ≤ canvas.width := scaledSide_le _ hW
  have hheight : (fitWithin input canvas).height ≤ canvas.height := scaledSide_le _ hH
  refine ⟨_, dif_pos hc, rfl, rfl, ?_⟩
  rw [hcontent]
  refine ⟨positive_fitWithin input canvas, hwidth, hheight, ?_, centred_eq_none_iff, ?_, ?_⟩
  · exact fun r hr => ⟨size_of_centred hr, isCentred_of_centred hr hwidth hheight⟩
  · intro hratio
    obtain ⟨hcover, hless, hmore⟩ := fitWithin_of_wide hi hc hratio
    refine ⟨hcover, abs_lt.mpr ⟨?_, ?_⟩⟩
    · omega
    · omega
  · intro hratio
    obtain ⟨hcover, hless, hmore⟩ := fitWithin_of_high hi hc hratio
    refine ⟨hcover, abs_lt.mpr ⟨?_, ?_⟩⟩
    · omega
    · omega

/-- A canvas with nearly the largest sides and nearly the ratio of the picture
is covered to the last column. -/
theorem make_aspect_fits_large :
    let input : Size := ⟨4294967295, 4294967294, by decide, by decide⟩
    let canvas : Size := ⟨4294967294, 4294967293, by decide, by decide⟩
    input.positive = true ∧ canvas.positive = true
      ∧ canvas.height * input.width < canvas.width * input.height
      ∧ ∃ p, make input canvas .aspect = .ok p ∧ p.content.height = canvas.height
          ∧ p.content = canvas := by
  intro input canvas
  have hi : input.positive = true := by decide
  have hc : canvas.positive = true := by decide
  have hratio : canvas.height * input.width < canvas.width * input.height := by decide
  obtain ⟨p, hp, -, -, -, -, -, -, hnone, -, hhigh⟩ := make_aspect_fits hi hc
  have hmake : (make input canvas .aspect).map Plan.region = .ok none := by decide +kernel
  rw [hp] at hmake
  exact ⟨hi, hc, hratio, p, hp, (hhigh (Nat.le_of_lt hratio)).1, hnone.mp (Except.ok.inj hmake)⟩

end Plan

end Scanout
