import Scanout.Frame
import Scanout.Scale.Filter

/-!
# Resampling

`resample` scales a packed picture to another size.  The nearest filter picks
one pixel for every pixel.  The others take weighted means, first down the
columns and then along the rows, with bytes in between; a pass that would not
change its side is left out.

The weights of a pass are computed in double precision, divided by their sum,
and turned into integers with one binary precision for the whole pass: as many
bits as keep the largest weight within sixteen.  A mean is then a sum of integer
products, rounded and cut to a byte.

`size_resample` says that the result always has exactly the bytes of the wanted
size.

Whoever draws needs to know no more of resampling than that, and that a picture
which has the wanted size stays as it is.  So what is drawn goes through a
`Resampler`, any function with these two properties.  The filters are the ones
that are run.
-/

namespace Scanout.Resample

/-! ## Nearest pixels -/

/-- The whole number below a coordinate that is not negative. -/
def whole (x : Float) : Nat := x.toUInt64.toNat

/-- The column that each column reads. -/
def nearestColumns (n m : Nat) : Array Nat :=
  let step := Float.ofNat n / Float.ofNat m
  Array.ofFn fun i : Fin m => whole (step * 0.5 + step * Float.ofNat i.val)

/-- Append `k` rows that read the rows at `y`, `y + step`, … -/
def nearestRows (src : ByteArray) (width out : Nat) (columns : Array Nat) (step : Float) :
    (k : Nat) → (y : Float) → ByteArray → ByteArray
  | 0, _, acc => acc
  | k + 1, y, acc =>
      let start := whole y * width
      nearestRows src width out columns step k (y + step)
        (Bytes.appendPixels acc out fun x => Bytes.pixelAt src ((start + columns.getD x 0) * 3))

/-- Scale by picking pixels. -/
def nearest (src : ByteArray) (size target : Size) : ByteArray :=
  let step := Float.ofNat size.height / Float.ofNat target.height
  nearestRows src size.width target.width (nearestColumns size.width target.width) step
    target.height (step * 0.5) ByteArray.empty

/-! ## Weights -/

/-- The weights of one output position: of consecutive input positions from
`start` on. -/
structure Window (α : Type) where
  /-- The first input position. -/
  start : Nat
  /-- The weights from there on. -/
  weights : List α

/-- The weights of output position `o`, when `n` positions are mapped to another
count with a given step. -/
def window (k : Kernel) (n : Nat) (step : Float) (o : Nat) : Window Float :=
  let spread := if step > 1.0 then step else 1.0
  let radius := k.support * spread
  let inverse := 1.0 / spread
  let centre := (Float.ofNat o + 0.5) * step
  let first := if centre - radius > 0.0 then whole (centre - radius).floor else 0
  let stop := min (whole (centre + radius).ceil) n
  let all := (List.range' first (stop - first)).map fun x =>
    (x, k.weight ((Float.ofNat x - (centre - 0.5)) * inverse))
  let kept :=
    ((all.dropWhile fun (_, w) => w == 0.0).reverse.dropWhile fun (_, w) => w == 0.0).reverse
  let sum := kept.foldl (fun s (_, w) => s + w) 0.0
  ⟨(kept.head?.map Prod.fst).getD first, kept.map fun (_, w) => w / sum⟩

/-- The largest weight of a pass. -/
def largest (ws : List (Window Float)) : Float :=
  ws.foldl (fun m w => w.weights.foldl (fun m x => if m < x then x else m) m) 0.0

/-- The first precision, of `left` many from `p` on, at which the largest weight
would need more than sixteen bits with one bit more. -/
def precisionFrom (m : Float) : (left p : Nat) → Nat
  | 0, p => p
  | left + 1, p =>
      if (m * Float.ofNat (Nat.pow 2 (p + 1))).round >= 32768.0 then p
      else precisionFrom m left (p + 1)

/-- The number of binary places of the integer weights of a pass. -/
def precision (ws : List (Window Float)) : Nat := precisionFrom (largest ws) 21 0

/-- A weight as an integer of sixteen bits. -/
def integerWeight (p : Nat) (w : Float) : Int :=
  max (-32768) (min (w * Float.ofNat (Nat.pow 2 p)).round.toInt32.toInt 32767)

/-- The integer weights of a pass from `n` positions to `m`, and their precision. -/
def pass (k : Kernel) (n m : Nat) : Nat × Array (Window Int) :=
  let ws := (List.range m).map (window k n (Float.ofNat n / Float.ofNat m))
  let p := precision ws
  (p, (ws.map fun w => ⟨w.start, w.weights.map (integerWeight p)⟩).toArray)

/-! ## Means -/

/-- Add the weighted bytes at `i`, `i + step`, … to a sum. -/
def weigh (src : ByteArray) (step : Nat) : List Int → (i : Nat) → (sum : Int) → Int
  | [], _, sum => sum
  | w :: ws, i, sum => weigh src step ws (i + step) (sum + w * (Bytes.read src i).toNat)

/-- The byte nearest to a sum with `p` binary places. -/
def shade (p : Nat) (sum : Int) : UInt8 := UInt8.ofNat (min (sum >>> p).toNat 255)

/-- The weighted mean of the bytes at `i`, `i + step`, … -/
@[inline] def mean (src : ByteArray) (p step : Nat) (ws : List Int) (i : Nat) : UInt8 :=
  shade p (weigh src step ws i (Nat.pow 2 (p - 1) : Int))

/-- Scale the columns of a picture to another height. -/
def vertical (k : Kernel) (src : ByteArray) (width height target : Nat) : ByteArray :=
  let (p, windows) := pass k height target
  Bytes.appendRows ByteArray.empty target fun o acc =>
    let w := windows.getD o ⟨0, []⟩
    let start := w.start * (3 * width)
    Bytes.append acc (3 * width) fun j => mean src p (3 * width) w.weights (start + j)

/-- Scale the rows of a picture to another width. -/
def horizontal (k : Kernel) (src : ByteArray) (width height target : Nat) : ByteArray :=
  let (p, windows) := pass k width target
  Bytes.appendRows ByteArray.empty height fun y acc =>
    Bytes.appendPixels acc target fun o =>
      let w := windows.getD o ⟨0, []⟩
      let start := (y * width + w.start) * 3
      ⟨mean src p 3 w.weights start, mean src p 3 w.weights (start + 1),
        mean src p 3 w.weights (start + 2)⟩

/-- Scale by weighted means, columns first. -/
def convolve (k : Kernel) (src : ByteArray) (size target : Size) : ByteArray :=
  let tall :=
    if size.height = target.height then src
    else vertical k src size.width size.height target.height
  if size.width = target.width then tall
  else horizontal k tall size.width target.height target.width

/-! ## Resampling -/

/-- A packed picture of one size scaled to another. -/
def resample (f : Filter) (src : ByteArray) (size target : Size) : ByteArray :=
  if size = target then src
  else
    match f with
    | .nearest => nearest src size target
    | .bilinear => convolve .bilinear src size target
    | .lanczos3 => convolve .lanczos3 src size target

/-! ## Lengths -/

theorem size_nearestRows (src : ByteArray) (width out : Nat) (columns : Array Nat) (step : Float) :
    ∀ (k : Nat) (y : Float) (acc : ByteArray),
      (nearestRows src width out columns step k y acc).size = acc.size + k * (3 * out)
  | 0, _, acc => by simp [nearestRows]
  | k + 1, y, acc => by
      rw [nearestRows, size_nearestRows src width out columns step k, Bytes.size_appendPixels,
        Nat.add_mul k 1 (3 * out)]
      omega

theorem size_vertical (k : Kernel) (src : ByteArray) (width height target : Nat) :
    (vertical k src width height target).size = target * (3 * width) := by
  simp only [vertical]
  rw [Bytes.size_appendRows _ _ (3 * width) _ (by intros; simp), ByteArray.size_empty, Nat.zero_add]

theorem size_horizontal (k : Kernel) (src : ByteArray) (width height target : Nat) :
    (horizontal k src width height target).size = height * (3 * target) := by
  simp only [horizontal]
  rw [Bytes.size_appendRows _ _ (3 * target) _ (by intros; simp), ByteArray.size_empty,
    Nat.zero_add]

/-- Scaling a picture of the right length gives one of the right length. -/
theorem size_resample (f : Filter) (src : ByteArray) (size target : Size)
    (h : src.size = size.byteLength) : (resample f src size target).size = target.byteLength := by
  have conv : ∀ k, (convolve k src size target).size = target.byteLength := fun k => by
    unfold convolve
    by_cases hw : size.width = target.width
    · by_cases hh : size.height = target.height
      · simp only [hw, hh, if_true]
        rw [h, Size.byteLength_eq, Size.byteLength_eq, hw, hh]
      · simp only [hw, hh, if_true, if_false]
        rw [size_vertical, Size.byteLength_eq]
    · simp only [hw, if_false]
      rw [size_horizontal, Size.byteLength_eq]
  unfold resample
  split
  · rename_i hs
    rw [h, hs]
  · cases f
    · exact conv _
    · exact conv _
    · rw [nearest]
      simp only [size_nearestRows, Size.byteLength_eq, ByteArray.size_empty, Nat.zero_add]

end Scanout.Resample

namespace Scanout

/-! ## Resamplers -/

/-- A way to scale packed pictures. -/
structure Resampler where
  title : String
  /-- A picture of one size scaled to another. -/
  resample (src : ByteArray) (size target : Size) : ByteArray
  /-- The result has the bytes of the wanted size. -/
  size_resample (src : ByteArray) (size target : Size) (h : src.size = size.byteLength) :
    (resample src size target).size = target.byteLength
  /-- A picture of the wanted size stays as it is. -/
  resample_self (src : ByteArray) (size : Size) : resample src size size = src

/-- Resampling with a filter. -/
def Filter.resampler (f : Filter) : Resampler where
  title := f.title
  resample := Resample.resample f
  size_resample := Resample.size_resample f
  resample_self _ _ := if_pos rfl

instance : Coe Filter Resampler := ⟨Filter.resampler⟩

namespace Resampler

def lanczos3 : Resampler := Filter.lanczos3.resampler

def nearest : Resampler := Filter.nearest.resampler

end Resampler

end Scanout
