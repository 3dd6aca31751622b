import Mathlib.Data.List.Nodup
import Scanout.ChannelOrder

/-!
# How an order is named

`ChannelOrder.parse` measures a text in bytes and reads it by characters, into
three places that are filled beforehand.  A character may take several bytes, so
a text of three bytes can be too short for the three places.  But then one of
its characters takes more than one byte, and no letter of a channel does.  So a
text of three bytes is either refused or has three letters
(`ChannelOrder.readSlots_eq_ok_iff`), and the places never keep what was in them
before.

Up to white space around it and letter case, an order is therefore read from its
name and from nothing else, but for the two long names of the first and the last
(`ChannelOrder.parse_eq_ok_iff`).
-/

namespace Scanout

/-! ## Letters -/

namespace Channel

theorem ofLetter?_eq_some_iff {c : Char} {channel : Channel} :
    ofLetter? c = some channel ↔ c = channel.letter := by
  constructor
  · intro h
    unfold ofLetter? at h
    split at h
    · cases h
      rfl
    · cases h
      rfl
    · cases h
      rfl
    · cases h
  · rintro rfl
    cases channel with
    | red => rfl
    | green => rfl
    | blue => rfl

theorem utf8Size_letter (channel : Channel) : channel.letter.utf8Size = 1 := by
  cases channel <;> decide

theorem letter_inj {a b : Channel} : a.letter = b.letter ↔ a = b := by
  rw [← ofLetter?_eq_some_iff, ofLetter?_eq_some_iff.mpr rfl, Option.some.injEq]

theorem ofIndex?_index (channel : Channel) : ofIndex? channel.index = some channel := by
  cases channel <;> rfl

end Channel

theorem Text.length_le_byteLength (cs : List Char) : cs.length ≤ byteLength cs := by
  induction cs with
  | nil => exact Nat.le_refl 0
  | cons c cs ih =>
      have hc := c.utf8Size_pos
      rw [List.length_cons, byteLength]
      omega

namespace ChannelOrder

variable {s : String} {cs : List Char} {a b c : Channel} {o : ChannelOrder}

/-! ## Three places -/

theorem readSlot_eq_ok_iff {place : Nat} :
    readSlot cs place = .ok a ↔ cs[place]? = some a.letter ∨ cs[place]? = none ∧ a = .red := by
  unfold readSlot
  cases cs[place]? with
  | none => simp [eq_comm]
  | some d =>
      dsimp only
      rw [Option.some.injEq, ← Channel.ofLetter?_eq_some_iff]
      cases Channel.ofLetter? d with
      | none => simp
      | some channel => simp

/-- A text of three bytes that is read has a letter for each place. -/
theorem readSlots_eq_ok_iff (hbytes : Text.byteLength cs = 3) :
    readSlots cs = .ok (a, b, c) ↔ cs = [a.letter, b.letter, c.letter] := by
  have hslots : readSlots cs = .ok (a, b, c)
      ↔ readSlot cs 0 = .ok a ∧ readSlot cs 1 = .ok b ∧ readSlot cs 2 = .ok c := by
    simp [readSlots, bind_eq_ok, pure, Except.pure]
  rw [hslots]
  simp only [readSlot_eq_ok_iff]
  -- a place keeps its red only in a text of at most two characters, and letters
  -- alone do not make three bytes of that
  match cs with
  | [] => cases hbytes
  | [x] =>
      refine ⟨fun ⟨hx, _⟩ => ?_, fun h => by simp at h⟩
      obtain rfl : x = a.letter := by simpa using hx
      simp [Text.byteLength, Channel.utf8Size_letter] at hbytes
  | [x, y] =>
      refine ⟨fun ⟨hx, hy, _⟩ => ?_, fun h => by simp at h⟩
      obtain rfl : x = a.letter := by simpa using hx
      obtain rfl : y = b.letter := by simpa using hy
      simp [Text.byteLength, Channel.utf8Size_letter] at hbytes
  | [x, y, z] => simp
  | x :: y :: z :: w :: rest =>
      have hlength := Text.length_le_byteLength (x :: y :: z :: w :: rest)
      simp only [hbytes, List.length_cons] at hlength
      omega

/-! ## Names -/

theorem toList_name (o : ChannelOrder) :
    o.name.toList = [o.channels.1.letter, o.channels.2.1.letter, o.channels.2.2.letter] := by
  rw [name, String.toList_ofList]
  rfl

theorem byteLength_name (o : ChannelOrder) : Text.byteLength o.name.toList = 3 := by
  simp [toList_name, Text.byteLength, Channel.utf8Size_letter]

theorem nodup_name (o : ChannelOrder) : o.name.toList.Nodup := by
  rw [toList_name]
  cases o <;> decide

theorem toList_name_eq_iff :
    [a.letter, b.letter, c.letter] = o.name.toList ↔ o.channels = (a, b, c) := by
  rw [toList_name, List.cons.injEq, List.cons.injEq, List.cons.injEq, Channel.letter_inj,
    Channel.letter_inj, Channel.letter_inj, eq_comm, Prod.ext_iff, Prod.ext_iff]
  simp [eq_comm]

theorem ofIndices_eq_ok_iff :
    ofIndices a.index b.index c.index = .ok o ↔ o.channels = (a, b, c) := by
  rw [ofIndices, Channel.ofIndex?_index, Channel.ofIndex?_index, Channel.ofIndex?_index]
  dsimp only
  constructor
  · intro h
    split at h
    · rename_i hfound
      cases h
      exact channels_of_ofChannels? hfound
    · cases h
  · intro h
    have hfound := ofChannels?_channels o
    rw [h] at hfound
    rw [hfound]

/-! ## Reading an order -/

/-- What is compared of a text: the text without the white space around it, its
ASCII letters in lower case. -/
def canonical (s : String) : List Char := Text.lower (Text.trim s.toList)

/-- The text names an order, by its three letters or by the long name of the
first or the last order. -/
def Spells (cs : List Char) (o : ChannelOrder) : Prop :=
  cs = o.name.toList ∨ cs = "identity".toList ∧ o = rgb ∨ cs = "reverse".toList ∧ o = bgr

theorem byteLength_of_spells (h : Spells cs o) :
    Text.byteLength cs = 3 ∨ cs = "identity".toList ∨ cs = "reverse".toList := by
  obtain rfl | ⟨h, -⟩ | ⟨h, -⟩ := h
  · exact .inl o.byteLength_name
  · exact .inr (.inl h)
  · exact .inr (.inr h)

theorem ne_name (o : ChannelOrder) (h : Text.byteLength cs ≠ 3) : cs ≠ o.name.toList :=
  fun hname => h (hname ▸ o.byteLength_name)

theorem spells_identity_iff : Spells "identity".toList o ↔ o = rgb := by
  have hname : "identity".toList ≠ o.name.toList := o.ne_name (by decide +kernel)
  have hreverse : "identity".toList ≠ "reverse".toList := by decide +kernel
  simp only [Spells, hname, hreverse, false_or, true_and, false_and, or_false]

theorem spells_reverse_iff : Spells "reverse".toList o ↔ o = bgr := by
  have hname : "reverse".toList ≠ o.name.toList := o.ne_name (by decide +kernel)
  have hidentity : "reverse".toList ≠ "identity".toList := by decide +kernel
  simp only [Spells, hname, hidentity, false_or, true_and, false_and]

theorem spells_iff_of_byteLength (hbytes : Text.byteLength cs = 3) :
    Spells cs o ↔ cs = o.name.toList := by
  refine ⟨fun h => ?_, .inl⟩
  obtain h | ⟨h, -⟩ | ⟨h, -⟩ := h
  · exact h
  · rw [h] at hbytes
    exact absurd hbytes (by decide +kernel)
  · rw [h] at hbytes
    exact absurd hbytes (by decide +kernel)

/-- An order is read exactly from what spells it. -/
theorem parse_eq_ok_iff : parse s = .ok o ↔ Spells (canonical s) o := by
  unfold parse
  dsimp only
  rw [← canonical]
  split
  · rename_i hidentity
    rw [hidentity, spells_identity_iff, Except.ok.injEq, eq_comm]
  · rename_i hidentity
    split
    · rename_i hreverse
      rw [hreverse, spells_reverse_iff, Except.ok.injEq, eq_comm]
    · rename_i hreverse
      split
      · rename_i hbytes
        refine ⟨fun h => (nomatch h), fun h => ?_⟩
        obtain h | h | h := byteLength_of_spells h
        · exact absurd h hbytes
        · exact absurd h hidentity
        · exact absurd h hreverse
      · rename_i hbytes
        rw [Classical.not_not] at hbytes
        rw [spells_iff_of_byteLength hbytes]
        split
        · rename_i c hread
          refine ⟨fun h => (nomatch h), fun h => ?_⟩
          rw [(readSlots_eq_ok_iff hbytes).mpr (h.trans o.toList_name)] at hread
          cases hread
        · rename_i a b c hread
          rw [ofIndices_eq_ok_iff, (readSlots_eq_ok_iff hbytes).mp hread, toList_name_eq_iff]

theorem parse_ok_or_refused (s : String) :
    (∃ o, parse s = .ok o) ∨ ∃ reason, parse s = .error (.config "channel_order" reason) := by
  have hindices : ∀ a b c,
      (∃ o, ofIndices a b c = .ok o)
        ∨ ∃ reason, ofIndices a b c = .error (.config "channel_order" reason) := by
    intro a b c
    unfold ofIndices
    split
    · split
      · exact .inl ⟨_, rfl⟩
      · exact .inr ⟨_, rfl⟩
    · exact .inr ⟨_, rfl⟩
  unfold parse
  dsimp only
  split
  · exact .inl ⟨_, rfl⟩
  · split
    · exact .inl ⟨_, rfl⟩
    · split
      · exact .inr ⟨_, rfl⟩
      · split
        · exact .inr ⟨_, rfl⟩
        · exact hindices _ _ _

theorem parse_refused_iff :
    (∃ reason, parse s = .error (.config "channel_order" reason))
      ↔ ∀ o, ¬ Spells (canonical s) o := by
  constructor
  · rintro ⟨reason, hrefused⟩ o h
    rw [parse_eq_ok_iff.mpr h] at hrefused
    cases hrefused
  · intro hnone
    obtain ⟨o, ho⟩ | hrefused := parse_ok_or_refused s
    · exact absurd (parse_eq_ok_iff.mp ho) (hnone o)
    · exact hrefused

/-- Three bytes that are fewer than three characters name no order. -/
theorem not_spells_of_short (hbytes : Text.byteLength cs = 3) (hshort : cs.length < 3) :
    ¬ Spells cs o := by
  rw [spells_iff_of_byteLength hbytes]
  rintro rfl
  rw [toList_name] at hshort
  exact absurd hshort (by simp)

/-- Three letters of which one is repeated name no order. -/
theorem not_spells_of_repeated (hlength : cs.length = 3) (hrepeated : ¬ cs.Nodup) :
    ¬ Spells cs o := by
  rintro (rfl | ⟨rfl, -⟩ | ⟨rfl, -⟩)
  · exact hrepeated o.nodup_name
  · exact absurd hlength (by decide +kernel)
  · exact absurd hlength (by decide +kernel)

theorem indices_perm (o : ChannelOrder) : o.indices.Perm [0, 1, 2] := by cases o <;> decide

theorem spells_name (o : ChannelOrder) : Spells (canonical o.name) o := by
  have hname : canonical o.name = o.name.toList := by cases o <;> decide +kernel
  exact .inl hname

/-- A text is read as an order exactly if it spells it, in capitals or small
letters and with any white space around it.  Any other text is refused, for a
reason that names the channel order.  Among those are three bytes that are not
three letters and three letters with one of them repeated, so an order that is
read names each channel once.  The name of an order is read as that order. -/
theorem parse_spells :
    (∀ s, (∀ o, parse s = .ok o ↔ Spells (canonical s) o)
        ∧ ((∃ reason, parse s = .error (.config "channel_order" reason))
          ↔ ∀ o, ¬ Spells (canonical s) o)
        ∧ (Text.byteLength (canonical s) = 3 → (canonical s).length < 3 →
          ∃ reason, parse s = .error (.config "channel_order" reason))
        ∧ ((canonical s).length = 3 → ¬ (canonical s).Nodup →
          ∃ reason, parse s = .error (.config "channel_order" reason))
        ∧ ∀ o, parse s = .ok o → o.indices.Perm [0, 1, 2])
      ∧ ∀ o : ChannelOrder, parse o.name = .ok o := by
  refine ⟨fun s => ⟨fun o => ?_, ?_, fun hbytes hshort => ?_, fun hlength hrepeated => ?_,
    fun o _ => ?_⟩, fun o => ?_⟩
  · exact parse_eq_ok_iff
  · exact parse_refused_iff
  · exact parse_refused_iff.mpr fun o => not_spells_of_short hbytes hshort
  · exact parse_refused_iff.mpr fun o => not_spells_of_repeated hlength hrepeated
  · exact o.indices_perm
  · exact parse_eq_ok_iff.mpr o.spells_name

/-- A long name with white space around it, two characters that take three bytes
together, and a repeated letter. -/
theorem parse_spells_capitals :
    Spells (canonical " Reverse\n") bgr ∧ parse " Reverse\n" = .ok bgr
      ∧ (∃ reason, parse "rß" = .error (.config "channel_order" reason))
      ∧ (∃ reason, parse "RGR" = .error (.config "channel_order" reason))
      ∧ parse ChannelOrder.gbr.name = .ok .gbr ∧ ChannelOrder.gbr.indices.Perm [0, 1, 2] := by
  have hreverse : Spells (canonical " Reverse\n") bgr := .inr (.inr ⟨by decide +kernel, rfl⟩)
  obtain ⟨hparse, hnames⟩ := parse_spells
  obtain ⟨hread, -, -, -, -⟩ := hparse " Reverse\n"
  obtain ⟨-, -, hshort, -, -⟩ := hparse "rß"
  obtain ⟨-, -, -, hrepeated, -⟩ := hparse "RGR"
  obtain ⟨-, -, -, -, hindices⟩ := hparse ChannelOrder.gbr.name
  exact ⟨hreverse, (hread bgr).mpr hreverse, hshort (by decide +kernel) (by decide +kernel),
    hrepeated (by decide +kernel) (by decide +kernel), hnames .gbr, hindices .gbr (hnames .gbr)⟩

end ChannelOrder

end Scanout
