import Mathlib.Tactic.Ring
import Scanout.Proofs.Encoding

/-!
# Reading an encoded frame back

A buffer that shows pixels in one layout can be read in any channel order:
`Encoded.Shows.decode` gives the frame whose pixels were arranged once by the
layout and once back by the order that is read.  In the layout's own order both
cancel.  In any other they do not, but arranging the frame by that order again
gives the buffer that was read, since a buffer is determined by its arranged
pixels (`Encoded.Shows.ext`).
-/

namespace Scanout

/-! ## Reading rows -/

namespace Encoded.Shows

variable {e : Encoded} {l : Layout} {p : Nat → Nat → Pixel}

/-- The pixel bytes of a row are its arranged pixels. -/
theorem toList_rowPixels (h : e.Shows l p) (hr : l.rowBytes ≤ l.stride) {r : Nat}
    (hh : r < l.height) :
    Bytes.toList (e.bytes.extract (r * l.stride) (r * l.stride + l.rowBytes))
      = (List.range l.width).flatMap fun x => (l.order.apply (p x r)).bytes := by
  have hrow : ((Bytes.toList e.bytes).drop (r * l.stride)).take l.stride
      = l.rowOf fun x => p x r := by
    rw [h.rows, Bytes.window_flatMap_range (fun _ _ => Layout.length_rowOf hr _) hh]
  rw [Bytes.toList_extract, List.drop_take, Nat.add_sub_cancel_left, ← Nat.min_eq_left hr,
    ← List.take_take, hrow, Layout.rowOf, List.take_left' (l.length_arranged _)]

theorem readRows_eq_ok (h : e.Shows l p) (hr : l.rowBytes ≤ l.stride) (o : ChannelOrder) :
    ∀ (n r : Nat) (acc : ByteArray), r + n ≤ l.height →
      ∃ bytes, readRows e o n r acc = .ok bytes ∧ Bytes.toList bytes
        = Bytes.toList acc ++ (List.range' r n).flatMap fun y =>
            (List.range l.width).flatMap fun x => (o.apply (l.order.apply (p x y))).bytes
  | 0, _, acc, _ => ⟨acc, rfl, by simp⟩
  | n + 1, r, acc, hn => by
      have hw : e.size.width = l.width := congrArg Size.width h.size_eq
      have hrow := h.rowPixels?_eq_some hr (r := r) (by omega)
      obtain ⟨bytes, hok, hbytes⟩ :=
        readRows_eq_ok h hr o n (r + 1) (appendArranged o acc l.width _) (by omega)
      refine ⟨bytes, ?_, ?_⟩
      · rw [readRows, hrow, hw]
        exact hok
      · rw [hbytes, toList_appendArranged, List.range'_succ, List.flatMap_cons, List.append_assoc]
        congr 2
        apply Bytes.flatMap_range_congr
        intro x hx
        rw [Bytes.pixelAt_of_toList (h.toList_rowPixels hr (by omega)) hx]

end Encoded.Shows

/-! ## Decoding -/

/-- The frame read in some order has every pixel arranged by the layout and back
by that order. -/
theorem Encoded.Shows.decode {e : Encoded} {l : Layout} {p : Nat → Nat → Pixel} (h : e.Shows l p)
    (hl : l.check = .ok ()) (o : ChannelOrder) :
    ∃ g, e.decode o = .ok g ∧ g.size = l.toSize
      ∧ ∀ x < l.width, ∀ y < l.height, g.pixel x y = o.inverse.apply (l.order.apply (p x y)) := by
  obtain ⟨hw, hh, hr, -⟩ := l.check_eq_ok_iff.mp hl
  obtain ⟨bytes, hok, hbytes⟩ := h.readRows_eq_ok hr o.inverse l.height 0 ByteArray.empty (by omega)
  rw [Bytes.toList_empty, List.nil_append, ← List.range_eq_range'] at hbytes
  have hlen : bytes.size = l.byteLength := by
    rw [← Bytes.length_toList, hbytes, Bytes.length_flatMap_range fun _ _ =>
      Bytes.length_flatMap_range fun _ _ => Pixel.length_bytes _, Size.byteLength, Size.area]
    ring
  have hword : l.byteLength < wordLimit := Nat.lt_of_le_of_lt (Layout.byteLength_le hl) (by decide)
  let g : Frame := ⟨l.toSize, bytes, l.positive_iff.mpr ⟨hw, hh⟩, hword, hlen⟩
  refine ⟨g, ?_, rfl, ?_⟩
  · rw [Encoded.decode, h.size_eq, hok]
    exact g.ofBytes_self
  · intro x hx y hy
    exact Frame.pixel_of_toList (f := g)
      (p := fun x y => o.inverse.apply (l.order.apply (p x y))) hbytes hx hy

/-- Buffers of one size and stride are the same if their pixels are, once arranged. -/
theorem Encoded.Shows.ext {e e' : Encoded} {l l' : Layout} {p p' : Nat → Nat → Pixel}
    (h : e.Shows l p) (h' : e'.Shows l' p') (hs : l'.toSize = l.toSize) (ht : l'.stride = l.stride)
    (hp : ∀ x < l.width, ∀ y < l.height, l.order.apply (p x y) = l'.order.apply (p' x y)) :
    e = e' := by
  have hw : l'.width = l.width := congrArg Size.width hs
  have hh : l'.height = l.height := congrArg Size.height hs
  have hbytes : e.bytes = e'.bytes := by
    apply Bytes.ext_toList
    rw [h.rows, h'.rows, hh]
    apply Bytes.flatMap_range_congr
    intro y hy
    have hpixels : (List.range l.width).flatMap (fun x => (l.order.apply (p x y)).bytes)
        = (List.range l.width).flatMap fun x => (l'.order.apply (p' x y)).bytes := by
      apply Bytes.flatMap_range_congr
      intro x hx
      rw [hp x hx y hy]
    rw [Layout.rowOf, Layout.rowOf, hpixels, hw, Layout.padding, Layout.padding, Layout.rowBytes,
      Layout.rowBytes, hw, ht]
  have hsize : e.size = e'.size := by rw [h.size_eq, h'.size_eq, hs]
  have hstride : e.stride = e'.stride := by rw [h.stride_eq, h'.stride_eq, ht]
  cases e
  cases e'
  exact Encoded.mk.injEq .. ▸ ⟨hsize, hstride, hbytes⟩

/-- What `encode` writes can be read in every channel order.  In the order of
the layout the frame comes back, and in any order the frame that was read is
encoded, in that order, into the buffer it was read from. -/
theorem decode_encode {f : Frame} {l : Layout} (hs : f.size = l.toSize) (hl : l.check = .ok ()) :
    ∃ e, encode f l = .ok e ∧ e.decode l.order = .ok f
      ∧ ∀ o, ∃ g, e.decode o = .ok g ∧ g.size = f.size
          ∧ encode g { l with order := o } = .ok e := by
  obtain ⟨e, hok, he⟩ := encode_shows hs hl
  have hw : f.width = l.width := congrArg Size.width hs
  have hh : f.height = l.height := congrArg Size.height hs
  refine ⟨e, hok, ?_, ?_⟩
  · obtain ⟨g, hg, hsize, hpixel⟩ := he.decode hl l.order
    have hgf : g = f := by
      symm
      apply Frame.ext_pixel (hs.trans hsize.symm)
      intro x hx y hy
      rw [hpixel x (by omega) y (by omega), ChannelOrder.inverse_apply_apply]
    rw [hg, hgf]
  · intro o
    obtain ⟨g, hg, hsize, hpixel⟩ := he.decode hl o
    -- The check does not look at the order.
    have hlo : ({ l with order := o } : Layout).check = .ok () := hl
    obtain ⟨e', hok', he'⟩ := encode_shows (f := g) (l := { l with order := o }) hsize hlo
    have hee : e = e' := by
      apply he.ext he' rfl rfl
      intro x hx y hy
      rw [hpixel x hx y hy, ChannelOrder.apply_inverse_apply]
    exact ⟨g, hg, hsize.trans hs.symm, by rw [hok', hee]⟩

/-- The small picture sent as green, blue, red and read as blue, red, green. -/
theorem decode_encode_small : smallPicture.size = smallLayout.toSize ∧ smallLayout.check = .ok ()
    ∧ ∃ e g, encode smallPicture smallLayout = .ok e ∧ e.decode .gbr = .ok smallPicture
      ∧ e.decode .brg = .ok g ∧ encode g { smallLayout with order := .brg } = .ok e := by
  have hl : smallLayout.check = .ok () := by decide
  obtain ⟨e, hok, hback, hany⟩ := decode_encode (f := smallPicture) (l := smallLayout) rfl hl
  obtain ⟨g, hg, -, hagain⟩ := hany .brg
  exact ⟨rfl, hl, e, g, hok, hback, hg, hagain⟩

end Scanout
