import Mathlib.Data.List.Basic
import Scanout.Frame

/-!
# Buffers of rows

Frames and encoded frames are runs of rows of one length, and a packed row is a
run of pixels of three bytes.  Both have the shape `(List.range n).flatMap run`
with runs of one length `k`.  `window_flatMap_range` takes run `i` out of it,
and `getElem?_flatMap_range` names byte `j` of run `i`.

`toList_eq_pixels` reads a packed row as its pixels and `pixelAt_of_toList`
reads a pixel off the run it was written in, so what is written pixel by pixel
can be read pixel by pixel (`Frame.ofBytes_tabulateBytes`).
-/

namespace Scanout

theorem Pixel.length_bytes (p : Pixel) : p.bytes.length = 3 := rfl

namespace Bytes

variable {α : Type}

/-! ## Runs of one length -/

theorem flatMap_range_eq (run : Nat → List α) {n i : Nat} (h : i < n) :
    (List.range n).flatMap run
      = (List.range i).flatMap run
        ++ (run i ++ (List.range' (i + 1) (n - (i + 1))).flatMap run) := by
  have hn : List.range n = List.range i ++ i :: List.range' (i + 1) (n - (i + 1)) := by
    have hsplit := List.range'_append_1 (s := 0) (m := i) (n := n - (i + 1) + 1)
    rw [Nat.zero_add, show i + (n - (i + 1) + 1) = n by omega] at hsplit
    rw [List.range_eq_range', List.range_eq_range', ← List.range'_succ, hsplit]
  rw [hn, List.flatMap_append, List.flatMap_cons]

theorem flatMap_range_congr {f g : Nat → List α} {n : Nat} (h : ∀ i < n, f i = g i) :
    (List.range n).flatMap f = (List.range n).flatMap g :=
  List.flatMap_congr fun i hi => h i (List.mem_range.mp hi)

theorem length_flatMap_range {run : Nat → List α} {n k : Nat} (h : ∀ i < n, (run i).length = k) :
    ((List.range n).flatMap run).length = n * k := by
  induction n with
  | zero => simp
  | succ n ih =>
      rw [List.range_succ, List.flatMap_append, List.length_append, ih fun i hi => h i (by omega)]
      simp [h n (by omega), Nat.succ_mul]

/-- The `k` elements from `i * k` on are run `i`. -/
theorem window_flatMap_range {run : Nat → List α} {n k i : Nat} (h : ∀ i < n, (run i).length = k)
    (hi : i < n) : (((List.range n).flatMap run).drop (i * k)).take k = run i := by
  have hl : ((List.range i).flatMap run).length = i * k :=
    length_flatMap_range fun j hj => h j (by omega)
  rw [flatMap_range_eq run hi, ← hl, List.drop_left, ← h i hi, List.take_left]

theorem getElem?_flatMap_range {run : Nat → List α} {n k i j : Nat}
    (h : ∀ i < n, (run i).length = k)
    (hi : i < n) (hj : j < k) : ((List.range n).flatMap run)[i * k + j]? = (run i)[j]? := by
  rw [← window_flatMap_range h hi, List.getElem?_take_of_lt hj, List.getElem?_drop]

/-- A list of `n * k` elements is cut into `n` runs of length `k`. -/
theorem flatMap_windows {l : List α} {n k : Nat} (h : l.length = n * k) :
    (List.range n).flatMap (fun i => (l.drop (i * k)).take k) = l := by
  have hrun : ∀ i < n, ((l.drop (i * k)).take k).length = k := by
    intro i hi
    have : (i + 1) * k ≤ n * k := Nat.mul_le_mul_right k hi
    rw [Nat.succ_mul] at this
    rw [List.length_take, List.length_drop]
    omega
  apply List.ext_getElem?
  intro m
  by_cases hm : m < n * k
  · have hk : 0 < k := Nat.pos_of_mul_pos_left (Nat.zero_lt_of_lt hm)
    have hi : m / k < n := Nat.div_lt_of_lt_mul (by rwa [Nat.mul_comm])
    have hj : m % k < k := Nat.mod_lt m hk
    conv => lhs; rw [← Nat.div_add_mod' m k]
    rw [getElem?_flatMap_range hrun hi hj, List.getElem?_take_of_lt hj, List.getElem?_drop,
      Nat.div_add_mod']
  · rw [List.getElem?_eq_none (by rw [length_flatMap_range hrun]; omega),
      List.getElem?_eq_none (by omega)]

/-! ## Reading what was written -/

theorem getElem?_toList {b : ByteArray} {i : Nat} (h : i < b.size) :
    (toList b)[i]? = some (read b i) := by
  rw [read_eq, List.getD_eq_getElem?_getD,
    List.getElem?_eq_getElem (by rw [length_toList]; exact h)]
  rfl

theorem read_extract {b : ByteArray} {start stop i : Nat} (h : start + i < stop) :
    read (b.extract start stop) i = read b (start + i) := by
  rw [read_eq, read_eq, toList_extract, List.getD_eq_getElem?_getD, List.getD_eq_getElem?_getD,
    List.getElem?_drop, List.getElem?_take_of_lt h]

theorem pixelAt_extract {b : ByteArray} {start stop i : Nat} (h : start + i + 2 < stop) :
    pixelAt (b.extract start stop) i = pixelAt b (start + i) := by
  rw [pixelAt, pixelAt, read_extract (by omega), read_extract (by omega), read_extract (by omega)]
  rfl

/-- A pixel written at place `x` of a run of pixels is read there. -/
theorem pixelAt_of_toList {b : ByteArray} {p : Nat → Pixel} {n x : Nat}
    (h : toList b = (List.range n).flatMap fun x => (p x).bytes) (hx : x < n) :
    pixelAt b (3 * x) = p x := by
  have hread : ∀ c < 3, read b (3 * x + c) = (p x).bytes.getD c 0 := by
    intro c hc
    rw [read_eq, h, List.getD_eq_getElem?_getD, List.getD_eq_getElem?_getD, Nat.mul_comm 3 x,
      getElem?_flatMap_range (fun i _ => (p i).length_bytes) hx hc]
  have h0 : read b (3 * x) = (p x).bytes.getD 0 0 := hread 0 (by decide)
  rw [pixelAt, h0, hread 1 (by decide), hread 2 (by decide)]
  rfl

theorem window_pixel {b : ByteArray} {i : Nat} (h : i + 3 ≤ b.size) :
    ((toList b).drop i).take 3 = (pixelAt b i).bytes := by
  apply List.ext_getElem?
  intro c
  by_cases hc : c < 3
  · rw [List.getElem?_take_of_lt hc, List.getElem?_drop, getElem?_toList (by omega)]
    match c, hc with
    | 0, _ => rfl
    | 1, _ => rfl
    | 2, _ => rfl
  · rw [List.getElem?_eq_none (by rw [List.length_take]; omega),
      List.getElem?_eq_none (by rw [Pixel.length_bytes]; omega)]

/-- A packed row is the run of its pixels. -/
theorem toList_eq_pixels {b : ByteArray} {n : Nat} (h : b.size = 3 * n) :
    toList b = (List.range n).flatMap fun x => (pixelAt b (3 * x)).bytes := by
  have hl : (toList b).length = n * 3 := by rw [length_toList]; omega
  rw [← flatMap_windows hl]
  apply flatMap_range_congr
  intro x hx
  rw [Nat.mul_comm x 3]
  exact window_pixel (by omega)

end Bytes

/-! ## Rows and pixels of a frame -/

namespace Frame

theorem size_of_row? {f : Frame} {y : Nat} {row : ByteArray} (h : f.row? y = some row) :
    row.size = 3 * f.width := by
  rw [row?, Bytes.slice?] at h
  split at h
  · rename_i hle
    cases h
    rw [← Bytes.length_toList, Bytes.toList_extract, List.length_drop, List.length_take,
      Bytes.length_toList]
    omega
  · cases h

theorem pixelAt_row? {f : Frame} {x y : Nat} {row : ByteArray} (h : f.row? y = some row)
    (hx : x < f.width) :
    Bytes.pixelAt row (3 * x) = f.pixel x y := by
  rw [row?, Bytes.slice?] at h
  split at h
  · cases h
    rw [Bytes.pixelAt_extract (by omega), pixel]
    congr 1
    rw [Nat.add_mul, Nat.mul_left_comm, Nat.mul_comm x 3, Nat.mul_comm 3 (y * f.width)]
  · cases h

/-- Inside the picture every pixel is in the buffer. -/
theorem pixel?_eq_some {f : Frame} {x y : Nat} (hx : x < f.width) (hy : y < f.height) :
    f.pixel? x y = some (f.pixel x y) := by
  have hrow : (y + 1) * f.width ≤ f.height * f.width := Nat.mul_le_mul_right _ hy
  rw [Nat.succ_mul] at hrow
  have hsize := f.bytes_size
  rw [Nat.mul_left_comm] at hsize
  rw [pixel?, if_pos (by omega)]
  rfl

theorem toList_row? {f : Frame} {y : Nat} {row : ByteArray} (h : f.row? y = some row) :
    Bytes.toList row = (List.range f.width).flatMap fun x => (f.pixel x y).bytes := by
  rw [Bytes.toList_eq_pixels (size_of_row? h)]
  apply Bytes.flatMap_range_congr
  intro x hx
  rw [pixelAt_row? h hx]

/-- The bytes of a frame are those of its pixels, row by row. -/
theorem toList_bytes (f : Frame) :
    Bytes.toList f.bytes
      = (List.range f.height).flatMap fun y => (List.range f.width).flatMap fun x =>
        (f.pixel x y).bytes := by
  have hl : (Bytes.toList f.bytes).length = f.height * (3 * f.width) := by
    rw [Bytes.length_toList, f.bytes_size]
  rw [← Bytes.flatMap_windows hl]
  apply Bytes.flatMap_range_congr
  intro y hy
  rw [← toList_row? (f.row?_eq_some hy), Bytes.toList_extract, List.drop_take,
    Nat.add_sub_cancel_left]

/-- A frame written pixel by pixel has these pixels. -/
theorem pixel_of_toList {f : Frame} {p : Nat → Nat → Pixel}
    (h : Bytes.toList f.bytes
      = (List.range f.height).flatMap fun y => (List.range f.width).flatMap fun x => (p x y).bytes)
    {x y : Nat} (hx : x < f.width) (hy : y < f.height) : f.pixel x y = p x y := by
  have hrow := f.row?_eq_some hy
  have hrun : ∀ y < f.height,
      ((List.range f.width).flatMap fun x => (p x y).bytes).length = 3 * f.width := by
    intro y _
    rw [Bytes.length_flatMap_range fun _ _ => Pixel.length_bytes _, Nat.mul_comm]
  rw [← pixelAt_row? hrow hx]
  apply Bytes.pixelAt_of_toList (p := fun x => p x y) (n := f.width) _ hx
  rw [Bytes.toList_extract, List.drop_take, Nat.add_sub_cancel_left, h,
    Bytes.window_flatMap_range hrun hy]

/-- Two frames of one size with the same pixels are the same. -/
theorem ext_pixel {f g : Frame} (hs : f.size = g.size)
    (hp : ∀ x < f.width, ∀ y < f.height, f.pixel x y = g.pixel x y) : f = g := by
  have hw : g.width = f.width := congrArg Size.width hs.symm
  have hh : g.height = f.height := congrArg Size.height hs.symm
  apply Frame.ext' hs
  apply Bytes.ext_toList
  rw [f.toList_bytes, g.toList_bytes, hw, hh]
  apply Bytes.flatMap_range_congr
  intro y hy
  apply Bytes.flatMap_range_congr
  intro x hx
  rw [hp x hx y hy]

/-! ## Frames given by their pixels -/

section Tabulate

variable {size : Size} {p q : Nat → Nat → Pixel}

theorem toList_tabulateBytes (size : Size) (p : Nat → Nat → Pixel) :
    Bytes.toList (tabulateBytes size p)
      = (List.range size.height).flatMap fun y => (List.range size.width).flatMap fun x =>
        (p x y).bytes := by
  rw [tabulateBytes, Bytes.toList_appendRows _ _ _ _ fun _ _ _ =>
    Bytes.toList_appendPixels .., Bytes.toList_empty,
    List.nil_append]

/-- Only the pixels inside the picture count. -/
theorem tabulateBytes_congr (h : ∀ x < size.width, ∀ y < size.height, p x y = q x y) :
    tabulateBytes size p = tabulateBytes size q := by
  apply Bytes.ext_toList
  rw [toList_tabulateBytes, toList_tabulateBytes]
  apply Bytes.flatMap_range_congr
  intro y hy
  apply Bytes.flatMap_range_congr
  intro x hx
  rw [h x hx y hy]

theorem ofBytes_tabulateBytes (hpos : size.positive = true) (hword : size.byteLength < wordLimit) :
    ∃ f, ofBytes size (tabulateBytes size p) = .ok f ∧ f.size = size
      ∧ ∀ x < size.width, ∀ y < size.height, f.pixel? x y = some (p x y) := by
  refine ⟨⟨size, tabulateBytes size p, hpos, hword, size_tabulateBytes size p⟩, ?_, rfl,
    fun x hx y hy => ?_⟩
  · rw [ofBytes, dif_pos hpos, dif_pos hword, dif_pos (size_tabulateBytes size p)]
  · rw [pixel?_eq_some hx hy, pixel_of_toList (toList_tabulateBytes size p) hx hy]

end Tabulate

end Frame

end Scanout
