import Scanout.Layout

/-!
# Candidate layouts

A sweep tries every layout of a finite space.  `Candidates` gives the space by
its four axes: canvas sizes, fits, strides and channel orders.  A stride is a
number of bytes, or a rule that aligns the row of each width.

`Candidates.enumerate` lists the layouts, nested in the order of the axes.  For
each size the strides that cannot hold a row, or that make the frame too large,
are dropped, and strides that come to the same number are tried once (`firsts`).
-/

namespace Scanout

/-! ## First occurrences -/

/-- A list with every element kept at its first occurrence only. -/
def firsts {α : Type} [DecidableEq α] : List α → List α
  | [] => []
  | a :: as => a :: (firsts as).filter (· ≠ a)

theorem mem_firsts {α : Type} [DecidableEq α] (x : α) : ∀ l : List α, x ∈ firsts l ↔ x ∈ l
  | [] => by simp [firsts]
  | a :: as => by
      by_cases h : x = a
      · simp [firsts, h]
      · simp [firsts, h, mem_firsts x as]

theorem nodup_firsts {α : Type} [DecidableEq α] : ∀ l : List α, (firsts l).Nodup
  | [] => by simp [firsts]
  | a :: as => by
      rw [firsts, List.nodup_cons]
      exact ⟨by simp, List.Pairwise.filter _ (nodup_firsts as)⟩

/-! ## Strides -/

/-- A candidate for the row stride. -/
inductive StrideRule where
  /-- This many bytes. -/
  | bytes (n : Nat)
  /-- The least multiple of the alignment that holds a row, and some further blocks. -/
  | aligned (alignment extraBlocks : Nat)
deriving DecidableEq, Repr

namespace StrideRule

/-- The stride for a width. -/
def resolve (width : Nat) : StrideRule → Outcome Nat
  | bytes n => .ok n
  | aligned alignment extraBlocks => alignedStride width alignment extraBlocks

/-- The rule aligns to blocks of no bytes. -/
def isDegenerate : StrideRule → Bool
  | bytes _ => false
  | aligned alignment _ => alignment == 0

/-- A rule is written as its number, or as `alignA+K`. -/
def text : StrideRule → String
  | bytes n => toString n
  | aligned alignment extraBlocks => "align" ++ toString alignment ++ "+" ++ toString extraBlocks

end StrideRule

/-! ## The candidate space -/

/-- The axes of a finite space of layouts. -/
structure Candidates where
  sizes : List Size
  fits : List Fit
  strides : List StrideRule
  orders : List ChannelOrder
deriving DecidableEq, Repr

namespace Candidates

/-- The layouts that one device or another was seen to take. -/
def standard : Candidates where
  sizes := [.vga, .wide, .svga]
  fits := [.exact, .aspect]
  strides := [.bytes 2048, .bytes 2560, .bytes 2562, .bytes 2816, .bytes 3072]
  orders := [.rgb, .bgr]

/-- The name of the first axis without candidates. -/
def emptyAxis? (c : Candidates) : Option String :=
  if c.sizes.isEmpty then some "resolutions"
  else if c.fits.isEmpty then some "fits"
  else if c.strides.isEmpty then some "strides"
  else if c.orders.isEmpty then some "orders"
  else none

/-- Reject a space with an empty axis, with a size without pixels, or with a
stride aligned to blocks of no bytes. -/
def check (c : Candidates) : Except Error Unit :=
  match c.emptyAxis? with
  | some axis => .error (.config axis "candidate axis is empty")
  | none =>
      match c.sizes.find? (! ·.positive) with
      | some size => .error (.invalidDimensions size.width size.height)
      | none =>
          if c.strides.any StrideRule.isDegenerate then
            .error (.config "strides" "alignment must be positive")
          else .ok ()

/-- A stride holds the rows of a size in a buffer that is not too large. -/
def holds (size : Size) (stride : Nat) : Bool :=
  3 * size.width ≤ stride && frameFits stride size.height

/-- The strides to try for a size. -/
def stridesFor (c : Candidates) (size : Size) : Outcome (List Nat) := do
  let strides ← (c.strides.filter (! ·.isDegenerate)).mapM (·.resolve size.width)
  return firsts (strides.filter (holds size))

/-- The layouts of one size with these strides. -/
def layoutsOf (c : Candidates) (size : Size) (strides : List Nat) : List Layout :=
  c.fits.flatMap fun fit => strides.flatMap fun stride => c.orders.map fun order =>
    ⟨size, stride, order, fit⟩

/-- The layouts of a space, nested by size, fit, stride and order. -/
def enumerate (c : Candidates) : Outcome (List Layout) :=
  match c.check with
  | .error e => report e
  | .ok () => do
      let groups ← c.sizes.mapM fun size => return c.layoutsOf size (← c.stridesFor size)
      return groups.flatten

/-- The number of layouts in a space, counted without listing them.  It is
computed in 64-bit words. -/
def length (c : Candidates) : Outcome Nat := do
  let counts ← c.sizes.mapM fun size => return (← c.stridesFor size).length
  let strides ← counts.foldlM (fun total count => word (total + count)) 0
  let fitted ← word (strides * c.fits.length)
  word (fitted * c.orders.length)

/-- The space has no layouts. -/
def isEmpty (c : Candidates) : Outcome Bool := return (← c.length) == 0

end Candidates

example : Candidates.standard.length = .ok 52 := by decide +kernel

end Scanout
