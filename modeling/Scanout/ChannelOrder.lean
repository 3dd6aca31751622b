import Scanout.Error
import Scanout.Text.Blank

/-!
# Channel orders

The device reads three bytes for every pixel, and which channel stands at which
byte was never documented.  A `ChannelOrder` is one of the six arrangements of
red, green and blue.  `apply` arranges a pixel and `inverse` names the order
that undoes it (`apply_inverse_apply`).

An order is written as its three letters in byte order.  `parse` also takes
`identity` and `reverse`.
-/

namespace Scanout

/-! ## Pixels -/

inductive Channel where
  | red
  | green
  | blue
deriving DecidableEq, Repr, Inhabited

/-- Three channel bytes: of a pixel, red, green and blue; of an arranged pixel,
its first, second and third byte. -/
structure Pixel where
  /-- The first byte. -/
  red : UInt8
  /-- The second byte. -/
  green : UInt8
  /-- The third byte. -/
  blue : UInt8
deriving DecidableEq, Repr, Inhabited

namespace Pixel

/-- No light. -/
def black : Pixel := ⟨0, 0, 0⟩

/-- The byte of one channel. -/
@[inline] def channel (p : Pixel) : Channel → UInt8
  | .red => p.red
  | .green => p.green
  | .blue => p.blue

/-- The three bytes in order. -/
def bytes (p : Pixel) : List UInt8 := [p.red, p.green, p.blue]

end Pixel

/-- The number of a channel in a frame. -/
def Channel.index : Channel → Nat
  | .red => 0
  | .green => 1
  | .blue => 2

def Channel.ofIndex? : Nat → Option Channel
  | 0 => some .red
  | 1 => some .green
  | 2 => some .blue
  | _ => none

def Channel.letter : Channel → Char
  | .red => 'r'
  | .green => 'g'
  | .blue => 'b'

def Channel.ofLetter? : Char → Option Channel
  | 'r' => some .red
  | 'g' => some .green
  | 'b' => some .blue
  | _ => none

/-! ## Orders -/

/-- An arrangement of the three channels, named by the channel at the first,
second and third byte. -/
inductive ChannelOrder where
  | rgb
  | rbg
  | grb
  | gbr
  | brg
  | bgr
deriving DecidableEq, Repr, Inhabited

namespace ChannelOrder

/-- Every order, the identity first. -/
def all : List ChannelOrder := [rgb, rbg, grb, gbr, brg, bgr]

/-- The channel at each of the three bytes. -/
def channels : ChannelOrder → Channel × Channel × Channel
  | rgb => (.red, .green, .blue)
  | rbg => (.red, .blue, .green)
  | grb => (.green, .red, .blue)
  | gbr => (.green, .blue, .red)
  | brg => (.blue, .red, .green)
  | bgr => (.blue, .green, .red)

/-- The order with these channels, if they are three different ones. -/
def ofChannels? : Channel → Channel → Channel → Option ChannelOrder
  | .red, .green, .blue => some rgb
  | .red, .blue, .green => some rbg
  | .green, .red, .blue => some grb
  | .green, .blue, .red => some gbr
  | .blue, .red, .green => some brg
  | .blue, .green, .red => some bgr
  | _, _, _ => none

/-- The channel numbers in byte order. -/
def indices (o : ChannelOrder) : List Nat :=
  let (a, b, c) := o.channels
  [a.index, b.index, c.index]

/-- The position of an order among all. -/
def position (o : ChannelOrder) : Nat := all.idxOf o

/-- The letters of an order in byte order. -/
def letters (o : ChannelOrder) : List Char :=
  let (a, b, c) := o.channels
  [a.letter, b.letter, c.letter]

/-- An order is written as its letters. -/
def name (o : ChannelOrder) : String := String.ofList o.letters

/-- Arrange the channels of a pixel. -/
@[inline] def apply (o : ChannelOrder) (p : Pixel) : Pixel :=
  match o with
  | rgb => p
  | rbg => ⟨p.red, p.blue, p.green⟩
  | grb => ⟨p.green, p.red, p.blue⟩
  | gbr => ⟨p.green, p.blue, p.red⟩
  | brg => ⟨p.blue, p.red, p.green⟩
  | bgr => ⟨p.blue, p.green, p.red⟩

/-- The order that undoes another. -/
def inverse : ChannelOrder → ChannelOrder
  | gbr => brg
  | brg => gbr
  | o => o

/-- The byte at each place of an arranged pixel is the channel the order names there. -/
theorem apply_eq (o : ChannelOrder) (p : Pixel) :
    o.apply p = ⟨p.channel o.channels.1, p.channel o.channels.2.1, p.channel o.channels.2.2⟩ := by
  cases o <;> rfl

@[simp] theorem inverse_apply_apply (o : ChannelOrder) (p : Pixel) :
    o.inverse.apply (o.apply p) = p := by
  cases o <;> rfl

@[simp] theorem apply_inverse_apply (o : ChannelOrder) (p : Pixel) :
    o.apply (o.inverse.apply p) = p := by
  cases o <;> rfl

theorem ofChannels?_channels (o : ChannelOrder) :
    ofChannels? o.channels.1 o.channels.2.1 o.channels.2.2 = some o := by
  cases o <;> rfl

theorem channels_of_ofChannels? {a b c : Channel} {o : ChannelOrder}
    (h : ofChannels? a b c = some o) :
    o.channels = (a, b, c) := by
  cases a <;> cases b <;> cases c <;> simp_all [ofChannels?] <;> subst h <;> rfl

/-! ## Reading an order -/

/-- Three channel numbers as they appear in a message. -/
def indicesText (a b c : Nat) : String :=
  "[" ++ toString a ++ ", " ++ toString b ++ ", " ++ toString c ++ "]"

/-- The order with these channel numbers. -/
def ofIndices (a b c : Nat) : Except Error ChannelOrder :=
  match Channel.ofIndex? a, Channel.ofIndex? b, Channel.ofIndex? c with
  | some x, some y, some z =>
      match ofChannels? x y z with
      | some o => .ok o
      | none => .error (notPermutation a b c)
  | _, _, _ => .error (notPermutation a b c)
where
  /-- The numbers do not name each channel once. -/
  notPermutation (a b c : Nat) : Error :=
    .config "channel_order" (indicesText a b c ++ " is not a permutation of [0, 1, 2]")

/-- The channel that the letter at a place of a text names, or the character
that stands there instead.  A place after the end of the text is left at the
first channel. -/
def readSlot (cs : List Char) (place : Nat) : Except Char Channel :=
  match cs[place]? with
  | none => .ok .red
  | some c =>
      match Channel.ofLetter? c with
      | some channel => .ok channel
      | none => .error c

/-- The channels that the first three letters of a text name, or the first
character that is not one. -/
def readSlots (cs : List Char) : Except Char (Channel × Channel × Channel) := do
  let a ← readSlot cs 0
  let b ← readSlot cs 1
  let c ← readSlot cs 2
  return (a, b, c)

/-- Read an order: `identity`, `reverse`, or its three letters.  Letter case and
white space around the text do not matter. -/
def parse (s : String) : Except Error ChannelOrder :=
  let cs := Text.lower (Text.trim s.toList)
  if cs = "identity".toList then .ok rgb
  else if cs = "reverse".toList then .ok bgr
  else if Text.byteLength cs ≠ 3 then
    .error (.config "channel_order"
      ("'" ++ s ++ "' is not rgb, bgr, identity, reverse or a 3-letter permutation"))
  else
    match readSlots cs with
    | .error c =>
        .error (.config "channel_order"
          ("unknown channel letter '" ++ c.toString ++ "' in '" ++ s ++ "'"))
    | .ok (a, b, c) => ofIndices a.index b.index c.index

example : parse "rrb"
    = .error (.config "channel_order" "[0, 0, 2] is not a permutation of [0, 1, 2]") := by
  decide +kernel

end ChannelOrder

end Scanout
