import Scanout.Json.Value
import Scanout.Layout

/-!
# Layout records

A confirmed layout is kept as a JSON record with five members.  Older records
spell some of them differently: a flag `swap_bgr` in place of `channel_order`,
and `mode` in place of `fit_mode`.  `Record.read?` reads all of them, each of
which may be absent or null, and `Record.layout` makes a layout of what was
read: the newer member wins over the older, and the first member in fault is
reported.

`Record.write` writes the record of a layout.  A record may also be an array of
its seven members in the order of the fields of `Record`.
-/

namespace Scanout

/-- What a record says, member by member. -/
structure Record where
  /-- Pixels per row. -/
  width : Option Int := none
  /-- Number of rows. -/
  height : Option Int := none
  /-- Bytes per row. -/
  stride : Option Int := none
  channelOrder : Option ChannelOrder := none
  /-- The channel order in an older spelling: blue first, or red first. -/
  swapBgr : Option Bool := none
  fitMode : Option Fit := none
  /-- The fit in an older spelling. -/
  mode : Option Fit := none
deriving DecidableEq, Repr

namespace Record

open Json

/-!
## Reading members

Each reader takes the tokens of a value.  It yields none if the member may not
have that value, and `some none` for null.
-/

/-- A whole number that fits a signed 64-bit word. -/
def word? (cs : List Char) : Option Int :=
  (integer? cs).filter fun n => -9223372036854775808 ≤ n && n < 9223372036854775808

/-- A channel number. -/
def byte? (cs : List Char) : Option Nat :=
  (integer? cs).bind fun n => if 0 ≤ n ∧ n < 256 then some n.toNat else none

def readNumber : List Token → Option (Option Int)
  | [.null] => some none
  | [.number cs] => (word? cs).map some
  | _ => none

def readFlag : List Token → Option (Option Bool)
  | [.null] => some none
  | [.bool b] => some (some b)
  | _ => none

/-- The value of a result that is not an error. -/
def ok? {α : Type} : Except Error α → Option α
  | .ok a => some a
  | .error _ => none

/-- A channel order member: a name, or three channel numbers. -/
def readOrder : List Token → Option (Option ChannelOrder)
  | [.null] => some none
  | [.string (some cs)] => (ok? (ChannelOrder.parse (String.ofList cs))).map some
  | [.openBracket, .number a, .comma, .number b, .comma, .number c, .closeBracket] =>
      match byte? a, byte? b, byte? c with
      | some a, some b, some c => (ok? (ChannelOrder.ofIndices a b c)).map some
      | _, _, _ => none
  | _ => none

/-- A fit member: a spelling of the fit, or an object with that spelling as its
only key and null as its value. -/
def readFit : List Token → Option (Option Fit)
  | [.null] => some none
  | [.string (some cs)] => (Fit.ofSpelling? (String.ofList cs)).map some
  | [.openBrace, .string (some cs), .colon, .null, .closeBrace] =>
      (Fit.ofSpelling? (String.ofList cs)).map some
  | _ => none

/-! ## Reading a record -/

/-- The value of the member with a key.  An absent member counts as null, and a
key may not be repeated. -/
def member? (ms : List (List Char × List Token)) (key : String) : Option (List Token) :=
  match ms.filter fun (k, _) => k == key.toList with
  | [] => some [.null]
  | [(_, value)] => some value
  | _ => none

/-- The record with these seven values. -/
def ofValues? : List (List Token) → Option Record
  | [width, height, stride, channelOrder, swapBgr, fitMode, mode] => do
      return ⟨← readNumber width, ← readNumber height, ← readNumber stride,
        ← readOrder channelOrder, ← readFlag swapBgr, ← readFit fitMode, ← readFit mode⟩
  | _ => none

def keys : List String :=
  ["width", "height", "stride", "channel_order", "swap_bgr", "fit_mode", "mode"]

/-- The record of a document: an object, whose other members are ignored, or an
array of the seven values. -/
def ofTokens? (ts : List Token) : Option Record :=
  match members? ts with
  | some ms => (keys.mapM (member? ms)).bind ofValues?
  | none => (items? ts).bind ofValues?

/-- The record in a text. -/
def read? (s : String) : Option Record := (tokens? s.toList).bind ofTokens?

/-! ## The layout of a record -/

def side (field : String) : Option Int → Except Error { n : Nat // n < 4294967296 }
  | none => .error (.config field "missing")
  | some n =>
      if h : 0 < n ∧ n < 4294967296 then .ok ⟨n.toNat, by omega⟩
      else .error (.config field (toString n ++ " is not a positive integer"))

def strideOf : Option Int → Except Error Nat
  | none => .error (.config "stride" "missing")
  | some n =>
      if 0 ≤ n then .ok n.toNat else .error (.config "stride" (toString n ++ " is negative"))

/-- The channel order, in the newer spelling or the older. -/
def orderOf : Option ChannelOrder → Option Bool → Except Error ChannelOrder
  | some o, _ => .ok o
  | none, some true => .ok .bgr
  | none, some false => .ok .rgb
  | none, none => .error (.config "channel_order" "missing")

/-- The fit, in the newer spelling or the older. -/
def fitOf : Option Fit → Option Fit → Except Error Fit
  | some f, _ => .ok f
  | none, some f => .ok f
  | none, none => .error (.config "fit_mode" "missing")

/-- The layout that a record describes, or the first fault in it. -/
def layout (r : Record) : Except Error Layout := do
  let width ← side "width" r.width
  let height ← side "height" r.height
  let stride ← strideOf r.stride
  let order ← orderOf r.channelOrder r.swapBgr
  let fit ← fitOf r.fitMode r.mode
  let layout : Layout :=
    ⟨⟨width.val, height.val, width.property, height.property⟩, stride, order, fit⟩
  layout.check
  return layout

/-- The layout that a text describes. -/
def parse (s : String) : Except Error Layout :=
  match read? s with
  | none => .error (.config "record" "the text is not a layout record")
  | some r => r.layout

/-! ## Writing a record -/

/-- The record of a layout, over several lines. -/
def write (l : Layout) : String :=
  "\x7b\n  \"width\": " ++ toString l.width ++ ",\n  \"height\": " ++ toString l.height
    ++ ",\n  \"stride\": " ++ toString l.stride ++ ",\n  \"channel_order\": \"" ++ l.order.name
    ++ "\",\n  \"fit_mode\": \"" ++ l.fit.name ++ "\"\n\x7d\n"

example : parse (write Layout.standard) = .ok Layout.standard := by decide +kernel
example : parse "[640, 480, 1920, [2, 1, 0], null, null, \x7b\"ExactFit\": null\x7d]"
    = .ok ⟨⟨640, 480, by decide, by decide⟩, 1920, .bgr, .exact⟩ := by decide +kernel

end Record

end Scanout
