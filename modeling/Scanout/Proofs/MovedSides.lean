import Scanout.Proofs.Neighbourhoods

/-!
# How far fine tuning moves a side

Fine tuning moves a side of a base by at most a hundred pixels and makes it at
least a hundred pixels long (`FineTune.Near`).  The moved side is computed in
wide numbers, and then its low 32 bits are kept.  For a side within a hundred
pixels of the largest 32-bit count that loses the carry, and what is left is
shorter than a hundred pixels (`FineTune.Carried`).  Bases are not checked, so
such a base is possible, and the short side may well pass the check with the
stride of the base.

`FineTune.movedSide_cases` says that nothing else can happen to a side.
`fineTune_sides` carries this to what is listed: a layout is near its bases,
unless a carry was lost, and a side below the minimum is listed if and only if
some base has a neighbour that lost a carry and passes the check.
-/

namespace Scanout

namespace FineTune

variable {l base : Layout} {side moved : Nat} {d : Int}

/-! ## One side -/

/-- A side that was moved by at most a hundred pixels and is no shorter than the
minimum. -/
structure Near (side moved : Nat) : Prop where
  minimum_le : minimumSide ≤ moved
  moved_le : moved ≤ side + 100
  side_le : side ≤ moved + 100

/-- The low 32 bits of a side that was moved past the largest 32-bit count. -/
structure Carried (side moved : Nat) : Prop where
  carry : moved + 4294967296 = side + 100
  lt_minimum : moved < minimumSide

theorem eq_of_mem_sideOffsets (h : d ∈ sideOffsets) : d = -100 ∨ d = 0 ∨ d = 100 := by
  simpa [sideOffsets] using h

/-- A moved side is near the side, unless it leaves its 32 bits. -/
theorem movedSide_cases (hside : side < 4294967296) (hd : d ∈ sideOffsets) :
    (side + d < 4294967296 ∧ Near side (movedSide side d % 4294967296))
      ∨ (4294967296 ≤ side + d ∧ Carried side (movedSide side d % 4294967296)) := by
  have hmoved : movedSide side d = (max (side + d) 100).toNat := rfl
  have hminimum : minimumSide = 100 := rfl
  have hoffset := eq_of_mem_sideOffsets hd
  by_cases hcarry : side + d < 4294967296
  · exact .inl ⟨hcarry, by omega, by omega, by omega⟩
  · exact .inr ⟨by omega, by omega, by omega⟩

/-- A moved side is below the minimum if and only if a carry was lost. -/
theorem movedSide_lt_iff (hside : side < 4294967296) (hd : d ∈ sideOffsets) :
    movedSide side d % 4294967296 < minimumSide ↔ 4294967296 ≤ side + d := by
  rcases movedSide_cases hside hd with ⟨hkept, hnear⟩ | ⟨hlost, hcarried⟩
  · exact ⟨fun h => absurd hnear.minimum_le (Nat.not_le_of_lt h),
      fun h => absurd hkept (Int.not_lt_of_ge h)⟩
  · exact ⟨fun _ => hlost, fun _ => hcarried.lt_minimum⟩

/-- A side that is not close to the largest 32-bit count loses no carry. -/
theorem Near.of_lt (h : Near side moved ∨ Carried side moved) (hside : side < 4294967196) :
    Near side moved :=
  h.resolve_right fun hcarried => by
    have hcarry := hcarried.carry
    omega

/-! ## Both sides -/

/-- The width of a neighbour is near that of its base, unless it lost a carry. -/
theorem width_of_mem_neighbours (h : l ∈ neighbours base) :
    Near base.width l.width ∨ Carried base.width l.width := by
  obtain ⟨percent, -, dx, hdx, dy, -, rfl⟩ := mem_neighbours_iff.mp h
  exact (movedSide_cases base.width_lt hdx).imp And.right And.right

/-- The height of a neighbour is near that of its base, unless it lost a carry. -/
theorem height_of_mem_neighbours (h : l ∈ neighbours base) :
    Near base.height l.height ∨ Carried base.height l.height := by
  obtain ⟨percent, -, dx, -, dy, hdy, rfl⟩ := mem_neighbours_iff.mp h
  exact (movedSide_cases base.height_lt hdy).imp And.right And.right

end FineTune

open FineTune

/-- A side below the minimum is listed if and only if a neighbour of some base
lost a carry and passes the check. -/
theorem exists_short_fineTune_iff {bases : List Layout} :
    (∃ l ∈ fineTune bases, l.width < minimumSide ∨ l.height < minimumSide)
      ↔ ∃ base ∈ bases, ∃ percent ∈ stridePercents, ∃ dx ∈ sideOffsets, ∃ dy ∈ sideOffsets,
          (neighbour base percent dx dy).check = .ok ()
            ∧ (4294967296 ≤ base.width + dx ∨ 4294967296 ≤ base.height + dy) := by
  constructor
  · rintro ⟨l, hl, hshort⟩
    obtain ⟨hmem, hcheck⟩ := mem_fineTune_iff.mp hl
    obtain ⟨base, hbase, hmem⟩ := List.mem_flatMap.mp hmem
    obtain ⟨percent, hpercent, dx, hdx, dy, hdy, rfl⟩ := mem_neighbours_iff.mp hmem
    refine ⟨base, hbase, percent, hpercent, dx, hdx, dy, hdy, hcheck, ?_⟩
    exact hshort.imp (movedSide_lt_iff base.width_lt hdx).mp
      (movedSide_lt_iff base.height_lt hdy).mp
  · rintro ⟨base, hbase, percent, hpercent, dx, hdx, dy, hdy, hcheck, hcarry⟩
    have hmem : neighbour base percent dx dy ∈ neighbours base :=
      mem_neighbours_iff.mpr ⟨percent, hpercent, dx, hdx, dy, hdy, rfl⟩
    refine ⟨_, mem_fineTune_iff.mpr ⟨List.mem_flatMap.mpr ⟨base, hbase, hmem⟩, hcheck⟩, ?_⟩
    exact hcarry.imp (movedSide_lt_iff base.width_lt hdx).mpr
      (movedSide_lt_iff base.height_lt hdy).mpr

/-- Every layout that fine tuning lists is a neighbour of a base.  Each of its
sides is near that of every base that it is a neighbour of, unless the side was
moved past the largest 32-bit count and lost its carry.  So a base whose sides
are not within a hundred pixels of that count has near neighbours only, and a
side below the minimum is listed in just the one other case, if what a lost
carry left passes the check. -/
theorem fineTune_sides (bases : List Layout) :
    (∀ l ∈ fineTune bases, (∃ base ∈ bases, l ∈ neighbours base) ∧ ∀ base, l ∈ neighbours base →
        (Near base.width l.width ∨ Carried base.width l.width)
        ∧ (Near base.height l.height ∨ Carried base.height l.height)
        ∧ (base.width < 4294967196 → Near base.width l.width)
        ∧ (base.height < 4294967196 → Near base.height l.height))
      ∧ ((∃ l ∈ fineTune bases, l.width < minimumSide ∨ l.height < minimumSide)
        ↔ ∃ base ∈ bases, ∃ percent ∈ stridePercents, ∃ dx ∈ sideOffsets, ∃ dy ∈ sideOffsets,
            (neighbour base percent dx dy).check = .ok ()
              ∧ (4294967296 ≤ base.width + dx ∨ 4294967296 ≤ base.height + dy)) := by
  refine ⟨fun l hl => ⟨List.mem_flatMap.mp (mem_fineTune_iff.mp hl).1, fun base hbase => ?_⟩,
    exists_short_fineTune_iff⟩
  have hwidth := width_of_mem_neighbours hbase
  have hheight := height_of_mem_neighbours hbase
  exact ⟨hwidth, hheight, Near.of_lt hwidth, Near.of_lt hheight⟩

/-- A base as wide as a 32-bit count can say, with a stride that holds no such row. -/
def broadest : Layout := { Layout.standard with width := 4294967295, width_lt := by decide }

/-- The broadest base has a neighbour of 99 columns, and the standard layout is
near itself. -/
theorem fineTune_sides_small :
    (∃ l ∈ fineTune [broadest], l ∈ neighbours broadest ∧ Carried broadest.width l.width
        ∧ Near broadest.height l.height)
      ∧ Layout.standard ∈ fineTune [.standard] ∧ .standard ∈ neighbours .standard
      ∧ Near Layout.standard.width Layout.standard.width := by
  let narrow : Layout := { Layout.standard with width := 99, width_lt := by decide }
  have hlisted : narrow ∈ fineTune [broadest] := by decide +kernel
  have hnarrow : narrow ∈ neighbours broadest := by decide +kernel
  have hstandard : Layout.standard ∈ fineTune [.standard] := by decide +kernel
  have hself : Layout.standard ∈ neighbours .standard := by decide +kernel
  obtain ⟨hwidth, -, -, hheight⟩ :=
    ((fineTune_sides [broadest]).1 narrow hlisted).2 broadest hnarrow
  obtain ⟨-, -, hnear, -⟩ := ((fineTune_sides [.standard]).1 _ hstandard).2 _ hself
  refine ⟨⟨narrow, hlisted, hnarrow, hwidth.resolve_left fun h => ?_, hheight (by decide)⟩,
    hstandard, hself, hnear (by decide)⟩
  exact absurd h.minimum_le (by decide)

/-- Fine tuning lists a layout of 99 columns, far below the minimum side and
farther still from the base. -/
theorem fineTune_short_of_broadest :
    ∃ l ∈ fineTune [broadest], l.width < minimumSide ∧ l.width + 100 < broadest.width :=
  ⟨{ Layout.standard with width := 99, width_lt := by decide },
    by decide +kernel, by decide, by decide⟩

end Scanout
