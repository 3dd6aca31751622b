import Scanout.Encoded
import Scanout.Proofs.ByteRows

/-!
# The bytes of an encoded frame

`Layout.rowOf` is one row as the device reads it, given by its pixels: every
pixel arranged in the channel order, then zero bytes up to the stride.
`Encoded.Shows` says that a buffer consists of such rows.

`encode_shows` finds the rows in what `encode` writes; both of its ways through
a row, copying and arranging, write the same bytes (`Layout.writeRow_eq`).
Everything that can be read back follows from the rows alone: the slices of a
row, and the byte at each place of it.
-/

namespace Scanout

/-! ## Channels by place -/

/-- The channel that an order puts at each byte of a pixel. -/
def ChannelOrder.channelAt (o : ChannelOrder) : Nat → Channel
  | 0 => o.channels.1
  | 1 => o.channels.2.1
  | _ => o.channels.2.2

theorem ChannelOrder.getElem?_apply (o : ChannelOrder) (p : Pixel) {c : Nat} (hc : c < 3) :
    (o.apply p).bytes[c]? = some (p.channel (o.channelAt c)) := by
  rw [o.apply_eq]
  match c, hc with
  | 0, _ => rfl
  | 1, _ => rfl
  | 2, _ => rfl

/-! ## The rows of a layout -/

/-- A row as the device reads it, given by its pixels. -/
def Layout.rowOf (l : Layout) (p : Nat → Pixel) : List UInt8 :=
  ((List.range l.width).flatMap fun x => (l.order.apply (p x)).bytes) ++ List.replicate l.padding 0

namespace Layout

variable {l : Layout}

theorem length_arranged (l : Layout) (p : Nat → Pixel) :
    ((List.range l.width).flatMap fun x => (l.order.apply (p x)).bytes).length = l.rowBytes := by
  rw [Bytes.length_flatMap_range (fun _ _ => Pixel.length_bytes _), rowBytes, Nat.mul_comm]

theorem length_rowOf (h : l.rowBytes ≤ l.stride) (p : Nat → Pixel) :
    (l.rowOf p).length = l.stride := by
  rw [rowOf, List.length_append, l.length_arranged, List.length_replicate, padding]
  omega

/-- Byte `j` of a row: a channel of pixel `j / 3`, or zero. -/
theorem getElem?_rowOf (l : Layout) (p : Nat → Pixel) {j : Nat} (hj : j < l.stride) :
    (l.rowOf p)[j]?
      = some (if j < l.rowBytes then (p (j / 3)).channel (l.order.channelAt (j % 3)) else 0) := by
  have hlen := l.length_arranged p
  by_cases hr : j < l.rowBytes
  · have hx : j / 3 < l.width := by rw [rowBytes] at hr; omega
    rw [if_pos hr, rowOf, List.getElem?_append_left (by omega)]
    conv => lhs; rw [← Nat.div_add_mod' j 3]
    rw [Bytes.getElem?_flatMap_range
        (fun _ _ => Pixel.length_bytes _) hx (Nat.mod_lt j (by decide)),
      ChannelOrder.getElem?_apply _ _ (Nat.mod_lt j (by decide))]
  · rw [if_neg hr, rowOf, List.getElem?_append_right (by omega), List.getElem?_replicate, hlen,
      if_pos (by rw [padding]; omega)]

end Layout

/-! ## Writing -/

theorem toList_appendArranged (o : ChannelOrder) (acc row : ByteArray) (n : Nat) :
    Bytes.toList (appendArranged o acc n row)
      = Bytes.toList acc
        ++ (List.range n).flatMap fun x => (o.apply (Bytes.pixelAt row (3 * x))).bytes := by
  rw [appendArranged, Bytes.toList_appendPixels]

/-- Copying a packed row writes what arranging its pixels in order `rgb` writes. -/
theorem append_eq_appendArranged {acc row : ByteArray} {n : Nat} (h : row.size = 3 * n) :
    acc ++ row = appendArranged .rgb acc n row := by
  apply Bytes.ext_toList
  rw [Bytes.toList_concat, toList_appendArranged, Bytes.toList_eq_pixels h]
  rfl

/-- Whatever the order, a row is written by arranging its pixels one by one. -/
theorem Layout.writeRow_eq (l : Layout) (acc : ByteArray) {row : ByteArray}
    (h : row.size = 3 * l.width) :
    l.writeRow acc row = Bytes.zeros (appendArranged l.order acc l.width row) l.padding := by
  unfold writeRow
  by_cases ho : l.order = .rgb
  · rw [if_pos ho, ho, append_eq_appendArranged h]
  · rw [if_neg ho]

theorem Layout.toList_writeRow {f : Frame} {l : Layout} (hs : f.size = l.toSize) {y : Nat}
    {row : ByteArray} (h : f.row? y = some row) (acc : ByteArray) :
    Bytes.toList (l.writeRow acc row) = Bytes.toList acc ++ l.rowOf fun x => f.pixel x y := by
  have hw : f.width = l.width := congrArg Size.width hs
  rw [l.writeRow_eq acc (by rw [Frame.size_of_row? h, hw]), Bytes.toList_zeros,
    toList_appendArranged, rowOf, List.append_assoc]
  congr 2
  apply Bytes.flatMap_range_congr
  intro x hx
  rw [Frame.pixelAt_row? h (by omega)]

/-- Writing rows never fails inside the picture. -/
theorem writeRows_eq_ok {f : Frame} {l : Layout} (hs : f.size = l.toSize) :
    ∀ (n y : Nat) (acc : ByteArray), y + n ≤ f.height →
      ∃ bytes, writeRows f l n y acc = .ok bytes ∧ Bytes.toList bytes
        = Bytes.toList acc ++ (List.range' y n).flatMap fun r => l.rowOf fun x => f.pixel x r
  | 0, _, acc, _ => ⟨acc, rfl, by simp⟩
  | n + 1, y, acc, h => by
      have hrow := f.row?_eq_some (y := y) (by omega)
      obtain ⟨bytes, hok, hbytes⟩ := writeRows_eq_ok hs n (y + 1) (l.writeRow acc _) (by omega)
      refine ⟨bytes, ?_, ?_⟩
      · rw [writeRows, hrow]
        exact hok
      · rw [hbytes, Layout.toList_writeRow hs hrow, List.range'_succ, List.flatMap_cons,
          List.append_assoc]

/-- The rows of a layout written pixel by pixel, whatever the order. -/
def arrangePixels (f : Frame) (l : Layout) : ByteArray :=
  Bytes.appendRows ByteArray.empty l.height fun y acc =>
    Bytes.zeros (Bytes.appendPixels acc l.width fun x => l.order.apply (f.pixel x y)) l.padding

theorem toList_arrangePixels (f : Frame) (l : Layout) :
    Bytes.toList (arrangePixels f l)
      = (List.range l.height).flatMap fun y => l.rowOf fun x => f.pixel x y := by
  unfold arrangePixels
  rw [Bytes.toList_appendRows _ _ _ (fun y => l.rowOf fun x => f.pixel x y), Bytes.toList_empty,
    List.nil_append]
  intro y _ acc
  rw [Bytes.toList_zeros, Bytes.toList_appendPixels, Layout.rowOf, List.append_assoc]

/-! ## Buffers of encoded rows -/

/-- The buffer shows pixels in a layout: it consists of the rows with these pixels. -/
structure Encoded.Shows (e : Encoded) (l : Layout) (p : Nat → Nat → Pixel) : Prop where
  size_eq : e.size = l.toSize
  stride_eq : e.stride = l.stride
  rows : Bytes.toList e.bytes = (List.range l.height).flatMap fun y => l.rowOf fun x => p x y

/-- A frame in a layout of its size that passes the check is encoded, and the
buffer shows its pixels. -/
theorem encode_shows {f : Frame} {l : Layout} (hs : f.size = l.toSize) (hl : l.check = .ok ()) :
    ∃ e, encode f l = .ok e ∧ e.Shows l f.pixel := by
  have hh : f.height = l.height := congrArg Size.height hs
  obtain ⟨bytes, hok, hbytes⟩ := writeRows_eq_ok hs l.height 0 ByteArray.empty (by omega)
  refine ⟨⟨l.toSize, l.stride, bytes⟩, ?_, rfl, rfl, ?_⟩
  · rw [encode, if_neg (not_not_intro hs), hl]
    dsimp only
    rw [hok]
    rfl
  · rw [hbytes, Bytes.toList_empty, List.nil_append, ← List.range_eq_range']

namespace Encoded.Shows

variable {e : Encoded} {l : Layout} {p : Nat → Nat → Pixel}

theorem rowBytes_eq (h : e.Shows l p) : e.rowBytes = l.rowBytes := by
  rw [Encoded.rowBytes, Layout.rowBytes, h.size_eq]

theorem length_eq (h : e.Shows l p) (hr : l.rowBytes ≤ l.stride) :
    e.bytes.size = l.stride * l.height := by
  rw [← Bytes.length_toList, h.rows,
    Bytes.length_flatMap_range fun _ _ => Layout.length_rowOf hr _, Nat.mul_comm]

theorem row_le (h : e.Shows l p) (hr : l.rowBytes ≤ l.stride) {r : Nat} (hh : r < l.height) :
    r * l.stride + l.stride ≤ e.bytes.size := by
  have hle : (r + 1) * l.stride ≤ l.height * l.stride := Nat.mul_le_mul_right _ hh
  rw [Nat.succ_mul, Nat.mul_comm l.height] at hle
  rw [h.length_eq hr]
  exact hle

theorem row?_eq_some (h : e.Shows l p) (hr : l.rowBytes ≤ l.stride) {r : Nat} (hh : r < l.height) :
    e.row? r = some (e.bytes.extract (r * l.stride) (r * l.stride + l.stride)) := by
  rw [Encoded.row?, h.stride_eq, Bytes.slice?, if_pos (h.row_le hr hh)]

theorem size_row (h : e.Shows l p) (hr : l.rowBytes ≤ l.stride) {r : Nat} (hh : r < l.height) :
    (e.bytes.extract (r * l.stride) (r * l.stride + l.stride)).size = l.stride := by
  have hle := h.row_le hr hh
  rw [ByteArray.size_extract]
  omega

theorem rowPixels?_eq_some (h : e.Shows l p) (hr : l.rowBytes ≤ l.stride) {r : Nat}
    (hh : r < l.height) :
    e.rowPixels? r = some (e.bytes.extract (r * l.stride) (r * l.stride + l.rowBytes)) := by
  have hsize := h.size_row hr hh
  rw [Encoded.rowPixels?, h.row?_eq_some hr hh, Option.bind_some, h.rowBytes_eq, Bytes.slice?,
    if_pos (by omega), ByteArray.extract_extract, Nat.zero_add, Nat.add_zero,
    Nat.min_eq_left (by omega)]

theorem rowPadding?_eq_some (h : e.Shows l p) (hr : l.rowBytes ≤ l.stride) {r : Nat}
    (hh : r < l.height) :
    e.rowPadding? r = some
      (e.bytes.extract (r * l.stride + l.rowBytes) (r * l.stride + l.stride)) := by
  have hsize := h.size_row hr hh
  rw [Encoded.rowPadding?, h.row?_eq_some hr hh, Option.bind_some, h.rowBytes_eq, hsize,
    Bytes.slice?, if_pos (by omega), ByteArray.extract_extract, Nat.add_sub_cancel' hr,
    Nat.min_self]

/-- The rows in order are the whole buffer. -/
theorem flatMap_row? (h : e.Shows l p) (hr : l.rowBytes ≤ l.stride) :
    ((List.range l.height).filterMap e.row?).flatMap Bytes.toList = Bytes.toList e.bytes := by
  have hl : (Bytes.toList e.bytes).length = l.height * l.stride := by
    rw [Bytes.length_toList, h.length_eq hr, Nat.mul_comm]
  have hrow : (List.range l.height).filterMap e.row?
      = (List.range l.height).map fun r =>
        e.bytes.extract (r * l.stride) (r * l.stride + l.stride) := by
    rw [← List.filterMap_eq_map']
    exact List.filterMap_congr fun r hmem => h.row?_eq_some hr (List.mem_range.mp hmem)
  rw [hrow, List.flatMap_map]
  conv => rhs; rw [← Bytes.flatMap_windows hl]
  apply Bytes.flatMap_range_congr
  intro r _
  rw [Bytes.toList_extract, List.drop_take, Nat.add_sub_cancel_left]

/-- Byte `j` of row `r`. -/
theorem getElem?_toList (h : e.Shows l p) (hr : l.rowBytes ≤ l.stride) {r j : Nat}
    (hh : r < l.height) (hj : j < l.stride) :
    (Bytes.toList e.bytes)[r * l.stride + j]?
      = some (if j < l.rowBytes then (p (j / 3) r).channel (l.order.channelAt (j % 3)) else 0) := by
  rw [h.rows, Bytes.getElem?_flatMap_range (fun _ _ => Layout.length_rowOf hr _) hh hj,
    Layout.getElem?_rowOf _ _ hj]

end Encoded.Shows

/-- A frame in a layout of its size that passes the check is encoded into
exactly `stride * height` bytes.  Byte `j` of row `r` is channel `j % 3` of the
order of pixel `j / 3` of that row, or zero past the pixels.  The slices of a
row are these bytes, the rows make up the buffer, and it is the one written
pixel by pixel. -/
theorem encode_bytes {f : Frame} {l : Layout} (hs : f.size = l.toSize) (hl : l.check = .ok ()) :
    ∃ e, encode f l = .ok e ∧ e.size = l.toSize ∧ e.stride = l.stride
      ∧ e.bytes.size = l.stride * l.height
      ∧ (∀ r < l.height, ∀ j < l.stride, (Bytes.toList e.bytes)[r * l.stride + j]?
          = if j < 3 * l.width then
              (f.pixel? (j / 3) r).map fun p => p.channel (l.order.channelAt (j % 3))
            else some 0)
      ∧ (∀ r < l.height, ∃ row pixels padding,
          e.row? r = some row ∧ row = e.bytes.extract (r * l.stride) (r * l.stride + l.stride)
          ∧ e.rowPixels? r = some pixels
          ∧ pixels = e.bytes.extract (r * l.stride) (r * l.stride + 3 * l.width)
          ∧ e.rowPadding? r = some padding
          ∧ padding = e.bytes.extract (r * l.stride + 3 * l.width) (r * l.stride + l.stride)
          ∧ pixels ++ padding = row)
      ∧ ((List.range l.height).filterMap e.row?).flatMap Bytes.toList = Bytes.toList e.bytes
      ∧ e.bytes = arrangePixels f l := by
  obtain ⟨e, hok, he⟩ := encode_shows hs hl
  obtain ⟨-, -, hr, -⟩ := l.check_eq_ok_iff.mp hl
  have hw : f.width = l.width := congrArg Size.width hs
  have hh : f.height = l.height := congrArg Size.height hs
  refine ⟨e, hok, he.size_eq, he.stride_eq, he.length_eq hr, ?_, ?_, he.flatMap_row? hr, ?_⟩
  · intro r hrow j hj
    rw [he.getElem?_toList hr hrow hj, Layout.rowBytes]
    by_cases hpix : j < 3 * l.width
    · rw [if_pos hpix, if_pos hpix, Frame.pixel?_eq_some (by omega) (by omega), Option.map_some]
    · rw [if_neg hpix, if_neg hpix]
  · intro r hrow
    refine ⟨_, _, _, he.row?_eq_some hr hrow, rfl, he.rowPixels?_eq_some hr hrow, rfl,
      he.rowPadding?_eq_some hr hrow, rfl, ?_⟩
    rw [← ByteArray.extract_eq_extract_append_extract _ (by omega) (by omega)]
  · apply Bytes.ext_toList
    rw [he.rows, toList_arrangePixels]

/-- A picture of one column and two rows. -/
def smallPicture : Frame where
  size := { width := 1, height := 2 }
  bytes := ⟨#[1, 2, 3, 4, 5, 6]⟩
  positive := by decide
  length_lt := by decide
  length_eq := by decide

/-- A layout of that size whose stride is no multiple of three. -/
def smallLayout : Layout where
  width := 1
  height := 2
  stride := 5
  order := .gbr
  fit := .exact

/-- The second row of the small picture is sent green, blue, red. -/
theorem encode_bytes_small : smallPicture.size = smallLayout.toSize ∧ smallLayout.check = .ok ()
    ∧ ∃ e, encode smallPicture smallLayout = .ok e ∧ e.bytes.size = 10
      ∧ (Bytes.toList e.bytes)[1 * 5 + 0]? = some 5 ∧ (Bytes.toList e.bytes)[1 * 5 + 2]? = some 4
      ∧ (Bytes.toList e.bytes)[1 * 5 + 3]? = some 0 := by
  have hl : smallLayout.check = .ok () := by decide
  obtain ⟨e, hok, -, -, hsize, hbyte, -⟩ :=
    encode_bytes (f := smallPicture) (l := smallLayout) rfl hl
  have hrow := hbyte 1 (by decide)
  exact ⟨rfl, hl, e, hok, hsize, (hrow 0 (by decide)).trans (by decide),
    (hrow 2 (by decide)).trans (by decide), (hrow 3 (by decide)).trans (by decide)⟩

end Scanout
