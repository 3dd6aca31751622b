import Scanout.Proofs.Providers

/-!
# How long a test pattern moves

A source that draws a pattern moves on by one tick after every frame, around the
end of the 64-bit word: after the last word comes zero, which read with a sign
is the step from minus one.  It moves only when the frame is drawn.  So it stops
for good at the first tick that cannot be drawn (`Source.after_pattern`), which
is shortly before the sign changes, and it draws one frame for each tick up to
there (`Source.askAll_pattern`).
-/

namespace Scanout

/-! ## Ticks with a sign -/

namespace TestPattern

variable {tick : BitVec 64}

theorem signed_toNat (tick : BitVec 64) : signed tick.toNat = tick.toInt := by
  rw [BitVec.toInt_eq_toNat_cond, signed]
  by_cases hsign : tick.toNat < 9223372036854775808
  · rw [if_pos hsign, if_pos (by omega)]
  · rw [if_neg hsign, if_neg (by omega)]
    rfl

/-- How many frames a source draws from a tick on before it comes to one that
cannot be drawn. -/
def framesLeft (tick : BitVec 64) : Nat := (tickLimit - tick.toInt).toNat

theorem framesLeft_eq_zero (h : tickLimit ≤ tick.toInt) : framesLeft tick = 0 :=
  Int.toNat_eq_zero.mpr (Int.sub_nonpos_of_le h)

/-- Below the limit the sign changes only from minus to plus. -/
theorem toInt_add_one (h : tick.toInt < tickLimit) : (tick + 1).toInt = tick.toInt + 1 := by
  have hword : tick.toNat < 18446744073709551616 := tick.isLt
  have hnext : (tick + 1).toNat = (tick.toNat + 1) % 18446744073709551616 := BitVec.toNat_add tick 1
  rw [tickLimit, BitVec.toInt_eq_toNat_cond] at h
  rw [BitVec.toInt_eq_toNat_cond, BitVec.toInt_eq_toNat_cond, hnext]
  split at h <;> split <;> omega

theorem framesLeft_add_one (h : tick.toInt < tickLimit) :
    framesLeft tick = framesLeft (tick + 1) + 1 := by
  rw [framesLeft, framesLeft, toInt_add_one h]
  omega

theorem toNat_add_one (tick : BitVec 64) : (tick + 1).toNat = (tick.toNat + 1) % wordLimit :=
  BitVec.toNat_add tick 1

end TestPattern

/-! ## Patterns that are asked -/

namespace Source

variable {size : Size} {tick : BitVec 64} {t : FileTree}

theorem result_acquire_pattern (p : TestPattern) (t : FileTree) :
    ((pattern p).acquire t).result = some (TestPattern.render p.size p.tick) := by
  rw [acquire]
  cases TestPattern.render p.size p.tick with
  | ok f => rfl
  | error e => rfl

theorem after_pattern_of_fault {p : TestPattern} (h : TestPattern.render p.size p.tick = fault) :
    (pattern p).after t = pattern p := by
  rw [after, acquire, h]
  rfl

/-- A pattern that a buffer can hold moves on by a tick, unless it has come to
the limit. -/
theorem after_pattern (hpos : size.positive = true)
    (hlength : size.byteLength < Frame.bufferLimit) :
    (pattern ⟨size, tick.toNat⟩).after t
      = pattern ⟨size, (if tick.toInt < TestPattern.tickLimit then tick + 1 else tick).toNat⟩ := by
  by_cases ht : tick.toInt < TestPattern.tickLimit
  · have hsigned : TestPattern.signed tick.toNat < TestPattern.tickLimit := by
      rwa [TestPattern.signed_toNat]
    obtain ⟨f, hf, -⟩ := TestPattern.render_eq_ok hpos hlength hsigned
    rw [if_pos ht, after, acquire, hf, TestPattern.toNat_add_one]
    rfl
  · have hsigned : TestPattern.tickLimit ≤ TestPattern.signed tick.toNat := by
      rw [TestPattern.signed_toNat]
      exact Int.not_lt.mp ht
    rw [if_neg ht, after_pattern_of_fault (TestPattern.render_eq_fault_of_le hsigned)]

/-- However often it is asked, it moves once for every tick that can be drawn
and then stays where it is. -/
theorem askAll_pattern (hpos : size.positive = true) (hlength : size.byteLength < Frame.bufferLimit)
    (ts : List FileTree) :
    (pattern ⟨size, tick.toNat⟩).askAll ts
      = pattern ⟨size, (tick + BitVec.ofNat 64
        (min ts.length (TestPattern.framesLeft tick))).toNat⟩ := by
  induction ts generalizing tick with
  | nil => rw [List.length_nil, Nat.zero_min, BitVec.add_zero]; rfl
  | cons t ts ih =>
      rw [askAll, List.foldl_cons, ← askAll, after_pattern hpos hlength, ih, List.length_cons]
      by_cases ht : tick.toInt < TestPattern.tickLimit
      · rw [if_pos ht, TestPattern.framesLeft_add_one ht, Nat.add_min_add_right, BitVec.ofNat_add,
          BitVec.add_assoc, BitVec.add_comm 1]
        rfl
      · have hnone := TestPattern.framesLeft_eq_zero (Int.not_lt.mp ht)
        rw [if_neg ht, hnone, Nat.min_zero, Nat.min_zero]

theorem askAll_of_fault {p : TestPattern} (h : TestPattern.render p.size p.tick = fault)
    (ts : List FileTree) :
    (pattern p).askAll ts = pattern p := by
  induction ts with
  | nil => rfl
  | cons t ts ih => rw [askAll, List.foldl_cons, ← askAll, after_pattern_of_fault h, ih]

/-- A test pattern of any size with pixels, at any 64-bit tick.  Its frame shows
the blocks as they stand at the tick read with a sign, a negative one as well,
where no more bytes are needed than a buffer can have and the tick is not one of
the last 600 before the sign changes.  Otherwise to draw it is a fault, and a
source that draws it stays where it is.  A source whose frames a buffer can hold
answers each time with the frame of its tick and moves on by one, through the
wrap of its word, until it comes to a tick that cannot be drawn. -/
theorem pattern_moves (size : Size) (tick : BitVec 64) (hpos : size.positive = true) :
    (size.byteLength < Frame.bufferLimit → tick.toInt < TestPattern.tickLimit →
      ∃ f, TestPattern.render size tick.toNat = .ok f ∧ TestPattern.Shows f size tick.toInt)
    ∧ (Frame.bufferLimit ≤ size.byteLength ∨ TestPattern.tickLimit ≤ tick.toInt →
      TestPattern.render size tick.toNat = fault
        ∧ ∀ ts, (pattern ⟨size, tick.toNat⟩).askAll ts = pattern ⟨size, tick.toNat⟩)
    ∧ (size.byteLength < Frame.bufferLimit → ∀ ts : List FileTree,
      let reached := tick + BitVec.ofNat 64 (min ts.length (TestPattern.framesLeft tick))
      (pattern ⟨size, tick.toNat⟩).askAll ts = pattern ⟨size, reached.toNat⟩
        ∧ ∀ t, (((pattern ⟨size, tick.toNat⟩).askAll ts).acquire t).result
          = some (TestPattern.render size reached.toNat)) := by
  rw [← TestPattern.signed_toNat]
  refine ⟨TestPattern.render_eq_ok hpos, fun h => ?_, fun hlength ts => ?_⟩
  · have hfault : TestPattern.render size tick.toNat = fault :=
      h.elim (TestPattern.render_eq_fault_of_oversized hpos) TestPattern.render_eq_fault_of_le
    exact ⟨hfault, askAll_of_fault hfault⟩
  · have hasked := @askAll_pattern size tick hpos hlength ts
    refine ⟨hasked, fun t => ?_⟩
    rw [hasked, result_acquire_pattern]

/-- The last word of the counter is the tick before zero: all blocks stand at
the right edge.  After two frames the tick is one. -/
theorem pattern_moves_around :
    let size : Size := { width := 100, height := 1 }
    size.positive = true ∧ (∃ f, TestPattern.render size 18446744073709551615 = .ok f
        ∧ f.pixel? 0 0 = some .black ∧ ∃ p, f.pixel? 99 0 = some p ∧ (p.red.toNat : Int) = 199
          ∧ (p.green.toNat : Int) = 143 ∧ (p.blue.toNat : Int) = 87)
      ∧ (pattern ⟨size, 18446744073709551615⟩).askAll [{}, {}] = pattern ⟨size, 1⟩ := by
  intro size
  obtain ⟨hdraws, -, hmoves⟩ := pattern_moves size (BitVec.allOnes 64) (by decide)
  obtain ⟨f, hf, hshows⟩ := hdraws (by decide) (by decide)
  refine ⟨by decide, ⟨f, hf, ?_, ?_⟩, (hmoves (by decide) [{}, {}]).1⟩
  · exact hshows.ground 0 (by decide) 0 (by decide) (by decide)
  · obtain ⟨p, hp, hred, hgreen, hblue⟩ :=
      hshows.topmost 99 (by decide) 0 (by decide) 4 (by decide) (by decide) (by decide)
    exact ⟨p, hp, hred.trans (by decide), hgreen.trans (by decide), hblue.trans (by decide)⟩

/-- At the largest positive tick not even one pixel is drawn, and the source
does not come past it. -/
theorem pattern_stops :
    let size : Size := { width := 1, height := 1 }
    size.positive = true ∧ TestPattern.render size 9223372036854775807 = fault
      ∧ ∀ t, (pattern ⟨size, 9223372036854775807⟩).after t
        = pattern ⟨size, 9223372036854775807⟩ := by
  intro size
  have hfault : TestPattern.render size 9223372036854775807 = fault :=
    TestPattern.render_eq_fault_of_le (by decide)
  exact ⟨by decide, hfault, fun t => after_pattern_of_fault hfault⟩

end Source

end Scanout
