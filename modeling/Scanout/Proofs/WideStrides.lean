import Scanout.Proofs.Counting

/-!
# Strides that leave their word

A rule that comes to an oversized stride is dropped, and the others stay as they
are (`Candidates.stridesFor_of_oversized`).  It does not matter whether the rule
is a number or aligns a row, as long as the stride is a 64-bit word.

An aligned stride is computed before it is compared, and the computation faults
where the stride is no word.  Then nothing is listed or counted, whatever the
other rules are (`Candidates.mapM_stridesFor_eq_fault`).  Nothing else goes
wrong in a space that passes the check, except that its count may be no word
itself.
-/

namespace Scanout

/-! ## Values and faults -/

/-- The computation yields a value or faults.  It reports no error and waits for
nothing. -/
def YieldsOrFaults {α : Type} (x : Outcome α) : Prop := (∃ a, x = .ok a) ∨ x = fault

namespace YieldsOrFaults

variable {α β : Type} {x : Outcome α}

theorem ok (a : α) : YieldsOrFaults (.ok a : Outcome α) := .inl ⟨a, rfl⟩

theorem word (n : Nat) : YieldsOrFaults (word n) := by
  by_cases h : n < wordLimit
  · exact .inl ⟨n, word_of_lt h⟩
  · exact .inr (word_of_le (Nat.le_of_not_lt h))

theorem bind {f : α → Outcome β} (hx : YieldsOrFaults x) (hf : ∀ a, YieldsOrFaults (f a)) :
    YieldsOrFaults (x >>= f) := by
  rcases hx with ⟨a, rfl⟩ | rfl
  · exact hf a
  · exact .inr rfl

theorem mapM {f : α → Outcome β} {as : List α} (hf : ∀ a, YieldsOrFaults (f a)) :
    YieldsOrFaults (as.mapM f) := by
  induction as with
  | nil => exact .ok []
  | cons a as ih =>
      rw [List.mapM_cons]
      exact (hf a).bind fun b => ih.bind fun bs => .ok (b :: bs)

theorem eq_fault (hx : YieldsOrFaults x) (h : ∀ a, x ≠ .ok a) : x = fault := by
  rcases hx with ⟨a, ha⟩ | hfault
  · exact absurd ha (h a)
  · exact hfault

end YieldsOrFaults

theorem yieldsOrFaults_alignedStride (width alignment extraBlocks : Nat) :
    YieldsOrFaults (alignedStride width alignment extraBlocks) := by
  unfold alignedStride
  split
  · exact .inr rfl
  · exact (YieldsOrFaults.word _).bind fun row => (YieldsOrFaults.word _).bind fun extra => .word _

theorem StrideRule.yieldsOrFaults_resolve (width : Nat) (rule : StrideRule) :
    YieldsOrFaults (rule.resolve width) := by
  cases rule with
  | bytes n => exact .ok n
  | aligned alignment extraBlocks => exact yieldsOrFaults_alignedStride width alignment extraBlocks

namespace Candidates

variable {c : Candidates} {size : Size} {rule : StrideRule} {before after : List StrideRule}

theorem yieldsOrFaults_stridesFor (c : Candidates) (size : Size) :
    YieldsOrFaults (c.stridesFor size) :=
  (YieldsOrFaults.mapM fun rule => rule.yieldsOrFaults_resolve size.width).bind fun _ => .ok _

/-! ## Faults -/

/-- Where an aligned stride leaves its word, whatever is computed of the strides
of all sizes faults. -/
theorem mapM_stridesFor_eq_fault {β : Type} (g : Size → List Nat → β) (hc : c.check = .ok ())
    (hw : ¬ c.InWord) :
    (c.sizes.mapM fun size => return g size (← c.stridesFor size)) = fault := by
  have hyields : YieldsOrFaults (c.sizes.mapM fun size => return g size (← c.stridesFor size)) :=
    .mapM fun size => (c.yieldsOrFaults_stridesFor size).bind fun strides => .ok (g size strides)
  refine hyields.eq_fault fun bs hbs => hw (inWord_of_stridesFor hc fun size hs => ?_)
  obtain ⟨b, hb⟩ := exists_of_mapM_eq_ok hbs hs
  obtain ⟨strides, hstrides, -⟩ := bind_eq_ok.mp hb
  exact ⟨strides, hstrides⟩

theorem enumerate_eq_fault (hc : c.check = .ok ()) (hw : ¬ c.InWord) : c.enumerate = fault := by
  rw [enumerate, hc]
  dsimp only
  rw [mapM_stridesFor_eq_fault c.layoutsOf hc hw]
  rfl

theorem length_eq_fault (hc : c.check = .ok ()) (hw : ¬ c.InWord) : c.length = fault := by
  rw [length, mapM_stridesFor_eq_fault (fun _ strides => strides.length) hc hw]
  rfl

/-! ## Oversized rules -/

theorem kept_of_oversized (hsplit : c.strides = before ++ rule :: after)
    (h : maxBufferLength < rule.value size.width * size.height) :
    ({ c with strides := before ++ after } : Candidates).kept size = c.kept size := by
  have hdrop : holds size (rule.value size.width) = false := by
    rw [holds, Bool.and_eq_false_imp]
    intro _
    rw [Bool.eq_false_iff]
    exact fun hfits => absurd (frameFits_iff.mp hfits) (Nat.not_le_of_lt h)
  simp [kept, hsplit, hdrop]

/-- Without a rule that comes to an oversized stride the other rules come to the
same strides as with it. -/
theorem stridesFor_of_oversized (hc : c.check = .ok ()) (hw : c.InWord) (hs : size ∈ c.sizes)
    (hsplit : c.strides = before ++ rule :: after)
    (h : maxBufferLength < rule.value size.width * size.height) :
    ({ c with strides := before ++ after } : Candidates).stridesFor size = .ok (c.kept size) := by
  have hmem : ∀ other ∈ before ++ after, other ∈ c.strides := by
    intro other hother
    rw [hsplit]
    simp only [List.mem_append, List.mem_cons] at hother ⊢
    tauto
  rw [← kept_of_oversized hsplit h, stridesFor_eq_kept]
  · exact fun other hother => isDegenerate_of_check hc (hmem other hother)
  · exact fun other hother => resolve_eq_ok hc hw hs (hmem other hother)

/-- A space that passes the check is listed and counted, unless one of its rules
aligns a row to a stride that is no 64-bit word: then listing and counting
fault.  The count faults as well if it is no word itself.  Wherever every stride
is a word, a rule that comes to an oversized one is dropped: without it the
strides of the size are the same. -/
theorem listed_or_faults (hc : c.check = .ok ()) :
    (¬ c.InWord → c.enumerate = fault ∧ c.length = fault ∧ c.isEmpty = fault)
      ∧ (c.InWord → ∃ ls, c.enumerate = .ok ls ∧ ls = c.nest c.kept ∧ c.length = word ls.length
          ∧ c.isEmpty = (word ls.length).map (fun _ => ls.isEmpty)
          ∧ ∀ size ∈ c.sizes, c.stridesFor size = .ok (c.kept size)
            ∧ ∀ before rule after, c.strides = before ++ rule :: after →
              maxBufferLength < rule.value size.width * size.height →
              ({ c with strides := before ++ after } : Candidates).stridesFor size
                = .ok (c.kept size)) := by
  refine ⟨fun hw => ?_, fun hw => ?_⟩
  · have hlength := length_eq_fault hc hw
    refine ⟨enumerate_eq_fault hc hw, hlength, ?_⟩
    rw [isEmpty, hlength]
    rfl
  · have hlength := length_eq_word hc hw
    refine ⟨_, enumerate_eq_ok hc hw, rfl, hlength, isEmpty_of_length hlength,
      fun size hs => ⟨?_, ?_⟩⟩
    · exact stridesFor_eq_ok hc hw hs
    · exact fun before rule after hsplit h => stridesFor_of_oversized hc hw hs hsplit h

/-- One pixel, an aligned stride, and a stride of three bytes beside it. -/
def widened (alignment extraBlocks : Nat) : Candidates where
  sizes := [.wrap 1 1]
  fits := [.exact]
  strides := [.aligned alignment extraBlocks, .bytes 3]
  orders := [.rgb]

theorem widened_inWord_iff {alignment extraBlocks : Nat} : (widened alignment extraBlocks).InWord
    ↔ blocks 3 alignment * alignment + extraBlocks * alignment < wordLimit := by
  constructor
  · intro h
    exact h (.wrap 1 1) (by simp [widened]) alignment extraBlocks (by simp [widened])
  · intro h size hs a b hr
    simp only [widened, List.mem_cons, List.not_mem_nil, or_false, StrideRule.aligned.injEq,
      reduceCtorEq] at hs hr
    obtain ⟨rfl, rfl⟩ := hr
    rw [hs]
    exact h

/-- A stride of two to the power of 27 is dropped, and one of two to the power
of 64 faults. -/
theorem listed_or_faults_widened :
    (widened 134217728 0).check = .ok () ∧ (widened 134217728 0).InWord
      ∧ (widened 134217728 0).stridesFor (.wrap 1 1) = .ok [3]
      ∧ (widened 9223372036854775808 1).check = .ok () ∧ ¬ (widened 9223372036854775808 1).InWord
      ∧ (widened 9223372036854775808 1).enumerate = fault := by
  have hdrop : (widened 134217728 0).check = .ok () := by decide
  have hfault : (widened 9223372036854775808 1).check = .ok () := by decide
  have hin : (widened 134217728 0).InWord := widened_inWord_iff.mpr (by decide)
  have hout : ¬ (widened 9223372036854775808 1).InWord := mt widened_inWord_iff.mp (by decide)
  obtain ⟨-, hdropped⟩ := listed_or_faults hdrop
  obtain ⟨hfaults, -⟩ := listed_or_faults hfault
  obtain ⟨ls, -, -, -, -, hstrides⟩ := hdropped hin
  obtain ⟨hall, hrest⟩ := hstrides (.wrap 1 1) (by decide)
  have hthree := hrest [] (.aligned 134217728 0) [.bytes 3] rfl (by decide)
  obtain ⟨henumerate, -, -⟩ := hfaults hout
  refine ⟨hdrop, hin, ?_, hfault, hout, henumerate⟩
  rw [hall, ← hthree]
  decide

/-- A stride that is no word is not dropped as an oversized one is, and the
layout beside it is lost with it. -/
theorem oversized_not_dropped :
    maxBufferLength < (StrideRule.aligned 9223372036854775808 1).value 1
      ∧ (widened 9223372036854775808 1).check = .ok ()
      ∧ (widened 9223372036854775808 1).enumerate = fault
      ∧ (widened 9223372036854775808 1).length = fault
      ∧ ({ widened 9223372036854775808 1 with strides := [.bytes 3] } : Candidates).enumerate
        = .ok [⟨.wrap 1 1, 3, .rgb, .exact⟩] := by
  decide

end Candidates

end Scanout
