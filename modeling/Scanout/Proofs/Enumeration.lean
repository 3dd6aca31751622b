import Mathlib.Data.List.Nodup
import Scanout.Proofs.SweepPlan

/-!
# What a candidate space lists

`Candidates.enumerate` drops strides and merges strides on the way, size by
size.  Here the list is compared with the space it comes from: a layout is
listed exactly when each of its parts is on the axis of that part and the layout
as a whole passes the check.  The list is nested by size, fit, stride and order,
where the strides of a size are those of the rules that a frame can have
(`Candidates.Keeps`), each once and in the order in which the rules first come
to them.

The one thing that can go wrong in a space that passes the check is an aligned
stride that is not a 64-bit word.  `Candidates.InWord` excludes it, and
`Candidates.inWord_of_enumerate` says that it excludes nothing else.
-/

namespace Scanout

theorem mapM_eq_ok_map {ε α β : Type} {f : α → Except ε β} {g : α → β} {as : List α}
    (h : ∀ a ∈ as, f a = .ok (g a)) : as.mapM f = .ok (as.map g) := by
  rw [mapM_eq_ok_iff, List.forall₂_map_right_iff, List.forall₂_same]
  exact h

theorem exists_of_mapM_eq_ok {ε α β : Type} {f : α → Except ε β} {as : List α} {bs : List β}
    (h : as.mapM f = .ok bs) {a : α} (ha : a ∈ as) : ∃ b, f a = .ok b := by
  induction mapM_eq_ok_iff.mp h with
  | nil => cases ha
  | cons hhead htail ih =>
      cases List.mem_cons.mp ha with
      | inl heq => exact ⟨_, heq ▸ hhead⟩
      | inr hmem => exact ih (mapM_eq_ok_iff.mpr htail) hmem

/-- Lists that tell by each of their elements whose list they are can be joined
without repetition. -/
theorem nodup_flatMap_of_key {α β : Type} {f : α → List β} {as : List α} (key : β → α)
    (has : as.Nodup) (hf : ∀ a ∈ as, (f a).Nodup) (hkey : ∀ a ∈ as, ∀ b ∈ f a, key b = a) :
    (as.flatMap f).Nodup := by
  refine List.nodup_flatMap.mpr ⟨hf, has.imp_of_mem ?_⟩
  intro a a' ha ha' hne b hb hb'
  exact hne ((hkey a ha b hb).symm.trans (hkey a' ha' b hb'))

/-! ## First occurrences -/

theorem firsts_filter {α : Type} [DecidableEq α] (p : α → Bool) (as : List α) :
    firsts (as.filter p) = (firsts as).filter p := by
  induction as with
  | nil => rfl
  | cons a as ih =>
      by_cases ha : p a = true
      · rw [List.filter_cons_of_pos ha, firsts, firsts, List.filter_cons_of_pos ha, ih,
          List.filter_filter, List.filter_filter]
        simp only [Bool.and_comm]
      · rw [List.filter_cons_of_neg ha, firsts, List.filter_cons_of_neg ha, ih, List.filter_filter]
        refine List.filter_congr fun b _ => ?_
        -- what passes is not `a`, so leaving `a` out as well changes nothing
        by_cases hb : b = a
        · simp [hb, ha]
        · simp [hb]

/-- First occurrences stand in the order of the list. -/
theorem pairwise_firsts {α : Type} [DecidableEq α] (as : List α) :
    (firsts as).Pairwise fun a b => as.idxOf a < as.idxOf b := by
  induction as with
  | nil => exact List.Pairwise.nil
  | cons a as ih =>
      have hlater : ∀ b ∈ (firsts as).filter (· ≠ a), (a :: as).idxOf b = as.idxOf b + 1 := by
        intro b hb
        have hne : b ≠ a := by simpa using (List.mem_filter.mp hb).2
        exact List.idxOf_cons_ne as hne.symm
      refine List.pairwise_cons.mpr ⟨?_, (ih.filter _).imp_of_mem ?_⟩
      · intro b hb
        rw [List.idxOf_cons_self, hlater b hb]
        exact Nat.succ_pos _
      · intro b b' hb hb' hlt
        rw [hlater b hb, hlater b' hb']
        exact Nat.succ_lt_succ hlt

/-! ## Strides in a word -/

namespace StrideRule

/-- The stride for a width, whatever its size. -/
def value (width : Nat) : StrideRule → Nat
  | bytes n => n
  | aligned alignment extraBlocks =>
      blocks (3 * width) alignment * alignment + extraBlocks * alignment

end StrideRule

theorem alignedStride_eq_ok_iff {width alignment extraBlocks n : Nat} :
    alignedStride width alignment extraBlocks = .ok n ↔ alignment ≠ 0
      ∧ blocks (3 * width) alignment * alignment + extraBlocks * alignment < wordLimit
      ∧ n = blocks (3 * width) alignment * alignment + extraBlocks * alignment := by
  by_cases ha : alignment = 0
  · subst ha
    exact ⟨fun h => (nomatch h), fun h => absurd rfl h.1⟩
  · unfold alignedStride
    rw [if_neg ha]
    constructor
    · intro h
      obtain ⟨row, hrow, h⟩ := bind_eq_ok.mp h
      obtain ⟨extra, hextra, h⟩ := bind_eq_ok.mp h
      obtain ⟨-, rfl⟩ := word_eq_ok_iff.mp hrow
      obtain ⟨-, rfl⟩ := word_eq_ok_iff.mp hextra
      exact ⟨ha, word_eq_ok_iff.mp h⟩
    · rintro ⟨-, hlt, hn⟩
      have hrow := word_eq_ok_iff.mpr ⟨Nat.lt_of_le_of_lt (Nat.le_add_right _ _) hlt, rfl⟩
      have hextra := word_eq_ok_iff.mpr ⟨Nat.lt_of_le_of_lt (Nat.le_add_left _ _) hlt, rfl⟩
      exact bind_eq_ok.mpr ⟨_, hrow, bind_eq_ok.mpr ⟨_, hextra, word_eq_ok_iff.mpr ⟨hlt, hn⟩⟩⟩

namespace Candidates

variable {c : Candidates} {size : Size}

/-- No rule aligns a row to a stride that is not a 64-bit word. -/
def InWord (c : Candidates) : Prop :=
  ∀ size ∈ c.sizes, ∀ alignment extraBlocks, StrideRule.aligned alignment extraBlocks ∈ c.strides →
    blocks (3 * size.width) alignment * alignment + extraBlocks * alignment < wordLimit

theorem isDegenerate_of_check (h : c.check = .ok ()) {rule : StrideRule} (hr : rule ∈ c.strides) :
    rule.isDegenerate = false := by
  unfold check at h
  split at h
  · cases h
  · split at h
    · cases h
    · split at h
      · cases h
      · rename_i hany
        rw [Bool.not_eq_true, List.any_eq_false] at hany
        simpa using hany rule hr

theorem resolve_eq_ok (hc : c.check = .ok ()) (hw : c.InWord) (hs : size ∈ c.sizes)
    {rule : StrideRule} (hr : rule ∈ c.strides) :
    rule.resolve size.width = .ok (rule.value size.width) := by
  cases rule with
  | bytes n => rfl
  | aligned alignment extraBlocks =>
      have hne : alignment ≠ 0 := by
        simpa [StrideRule.isDegenerate] using isDegenerate_of_check hc hr
      exact alignedStride_eq_ok_iff.mpr ⟨hne, hw size hs _ _ hr, rfl⟩

/-! ## The strides of a size -/

/-- The strides that a space gives to a size: the strides of its rules that hold
the rows of the size in a buffer that is not too large, each once, in the order
of the first rules that come to them. -/
structure Keeps (c : Candidates) (size : Size) (strides : List Nat) : Prop where
  mem_iff : ∀ n, n ∈ strides ↔ (∃ rule ∈ c.strides, rule.resolve size.width = .ok n)
    ∧ 3 * size.width ≤ n ∧ n * size.height ≤ maxBufferLength
  nodup : strides.Nodup
  inOrder : strides.Pairwise fun m n =>
    (c.strides.map (·.resolve size.width)).idxOf (.ok m)
      < (c.strides.map (·.resolve size.width)).idxOf (.ok n)

/-- The strides kept for a size, as one expression. -/
def kept (c : Candidates) (size : Size) : List Nat :=
  firsts ((c.strides.map (·.value size.width)).filter (holds size))

theorem stridesFor_eq_kept (hproper : ∀ rule ∈ c.strides, rule.isDegenerate = false)
    (hresolve : ∀ rule ∈ c.strides, rule.resolve size.width = .ok (rule.value size.width)) :
    c.stridesFor size = .ok (c.kept size) := by
  have hall : c.strides.filter (! ·.isDegenerate) = c.strides :=
    List.filter_eq_self.mpr fun rule hr => by rw [hproper rule hr, Bool.not_false]
  unfold stridesFor
  rw [hall, mapM_eq_ok_map hresolve]
  rfl

theorem stridesFor_eq_ok (hc : c.check = .ok ()) (hw : c.InWord) (hs : size ∈ c.sizes) :
    c.stridesFor size = .ok (c.kept size) :=
  stridesFor_eq_kept (fun _ => isDegenerate_of_check hc) fun _ => resolve_eq_ok hc hw hs

theorem keeps_kept (hc : c.check = .ok ()) (hw : c.InWord) (hs : size ∈ c.sizes) :
    c.Keeps size (c.kept size) := by
  have hresolve : c.strides.map (·.resolve size.width)
      = (c.strides.map (·.value size.width)).map .ok := by
    rw [List.map_map]
    exact List.map_congr_left fun rule hr => resolve_eq_ok hc hw hs hr
  have hidxOf : ∀ n, (c.strides.map (·.resolve size.width)).idxOf (.ok n)
      = (c.strides.map (·.value size.width)).idxOf n := by
    intro n
    rw [hresolve, List.idxOf, List.findIdx_map]
    congr 1
    funext m
    simp
  refine ⟨fun n => ?_, nodup_firsts _, ?_⟩
  · rw [kept, mem_firsts, List.mem_filter, List.mem_map, holds, Bool.and_eq_true,
      decide_eq_true_iff, frameFits_iff]
    refine and_congr_left fun _ => exists_congr fun rule => and_congr_right fun hr => ?_
    rw [resolve_eq_ok hc hw hs hr, Except.ok.injEq]
  · rw [kept, firsts_filter]
    refine ((pairwise_firsts _).filter _).imp ?_
    intro m n hlt
    rwa [hidxOf, hidxOf]

/-! ## The list -/

/-- The layouts of a space, given the strides of each size. -/
def nest (c : Candidates) (strides : Size → List Nat) : List Layout :=
  c.sizes.flatMap fun size => c.fits.flatMap fun fit => (strides size).flatMap fun stride =>
    c.orders.map fun order => ⟨size, stride, order, fit⟩

theorem mem_nest_iff {strides : Size → List Nat} {l : Layout} :
    l ∈ c.nest strides ↔ l.toSize ∈ c.sizes ∧ l.fit ∈ c.fits ∧ l.stride ∈ strides l.toSize
      ∧ l.order ∈ c.orders := by
  simp only [nest, List.mem_flatMap, List.mem_map]
  constructor
  · rintro ⟨size, hsize, fit, hfit, stride, hstride, order, horder, rfl⟩
    exact ⟨hsize, hfit, hstride, horder⟩
  · rintro ⟨hsize, hfit, hstride, horder⟩
    exact ⟨_, hsize, _, hfit, _, hstride, _, horder, rfl⟩

theorem nodup_nest {strides : Size → List Nat} (hsizes : c.sizes.Nodup) (hfits : c.fits.Nodup)
    (horders : c.orders.Nodup) (hstrides : ∀ size ∈ c.sizes, (strides size).Nodup) :
    (c.nest strides).Nodup := by
  refine nodup_flatMap_of_key Layout.toSize hsizes (fun size hsize => ?_) (fun size _ l hl => ?_)
  · refine nodup_flatMap_of_key Layout.fit hfits (fun fit _ => ?_) (fun fit _ l hl => ?_)
    · refine nodup_flatMap_of_key Layout.stride (hstrides size hsize) (fun stride _ => ?_)
        (fun stride _ l hl => ?_)
      · exact List.Nodup.map (fun order order' h => congrArg Layout.order h) horders
      · obtain ⟨order, -, rfl⟩ := List.mem_map.mp hl
        rfl
    · obtain ⟨stride, -, hl⟩ := List.mem_flatMap.mp hl
      obtain ⟨order, -, rfl⟩ := List.mem_map.mp hl
      rfl
  · exact (mem_layoutsOf (c := c) hl).1

theorem enumerate_eq_ok (hc : c.check = .ok ()) (hw : c.InWord) :
    c.enumerate = .ok (c.nest c.kept) := by
  have hgroups : c.sizes.mapM (fun size => return c.layoutsOf size (← c.stridesFor size))
      = .ok (c.sizes.map fun size => c.layoutsOf size (c.kept size)) := by
    refine mapM_eq_ok_map fun size hs => ?_
    rw [stridesFor_eq_ok hc hw hs]
    rfl
  rw [enumerate, hc]
  dsimp only
  rw [hgroups]
  exact congrArg Except.ok (List.flatMap_def).symm

theorem check_of_enumerate {ls : List Layout} (h : c.enumerate = .ok ls) : c.check = .ok () := by
  unfold enumerate at h
  split at h
  · cases h
  · assumption

/-- Where every size has its strides, no aligned stride left its word. -/
theorem inWord_of_stridesFor (hc : c.check = .ok ())
    (h : ∀ size ∈ c.sizes, ∃ strides, c.stridesFor size = .ok strides) :
    c.InWord := by
  intro size hs alignment extraBlocks hr
  obtain ⟨strides, hstrides⟩ := h size hs
  obtain ⟨all, hall, -⟩ := bind_eq_ok.mp hstrides
  obtain ⟨n, hn⟩ := exists_of_mapM_eq_ok hall
    (List.mem_filter.mpr ⟨hr, by rw [isDegenerate_of_check hc hr, Bool.not_false]⟩)
  exact (alignedStride_eq_ok_iff.mp hn).2.1

/-- Where a space is listed, no aligned stride left its word. -/
theorem inWord_of_enumerate {ls : List Layout} (h : c.enumerate = .ok ls) : c.InWord := by
  have hc := check_of_enumerate h
  rw [enumerate, hc] at h
  obtain ⟨groups, hgroups, -⟩ := bind_eq_ok.mp h
  refine inWord_of_stridesFor hc fun size hs => ?_
  obtain ⟨group, hgroup⟩ := exists_of_mapM_eq_ok hgroups hs
  obtain ⟨strides, hstrides, -⟩ := bind_eq_ok.mp hgroup
  exact ⟨strides, hstrides⟩

/-- A space that passes the check is listed, nested by its axes.  The list holds
every layout whose parts are on the axes and that passes the check, and holds
nothing else.  No layout is listed twice unless an axis repeats a candidate
itself. -/
theorem enumerate_total (hc : c.check = .ok ()) (hw : c.InWord) :
    ∃ (ls : List Layout) (strides : Size → List Nat), c.enumerate = .ok ls
      ∧ (∀ size ∈ c.sizes, c.Keeps size (strides size))
      ∧ (ls = c.sizes.flatMap fun size => c.fits.flatMap fun fit =>
          (strides size).flatMap fun stride =>
            c.orders.map fun order => ⟨size, stride, order, fit⟩)
      ∧ (∀ l : Layout, l ∈ ls ↔ l.toSize ∈ c.sizes ∧ l.fit ∈ c.fits ∧ l.order ∈ c.orders
          ∧ (∃ rule ∈ c.strides, rule.resolve l.width = .ok l.stride) ∧ l.check = .ok ())
      ∧ (c.sizes.Nodup → c.fits.Nodup → c.orders.Nodup → ls.Nodup) := by
  have hkeeps : ∀ size ∈ c.sizes, c.Keeps size (c.kept size) := fun size hs => keeps_kept hc hw hs
  refine ⟨_, c.kept, enumerate_eq_ok hc hw, hkeeps, rfl, fun l => ?_, fun hsizes hfits horders =>
    nodup_nest hsizes hfits horders fun size hs => (hkeeps size hs).nodup⟩
  rw [mem_nest_iff]
  constructor
  · rintro ⟨hsize, hfit, hstride, horder⟩
    obtain ⟨hrule, hrow, hbuffer⟩ := ((hkeeps _ hsize).mem_iff _).mp hstride
    obtain ⟨hwidth, hheight⟩ := l.positive_iff.mp (positive_of_check hc hsize)
    exact ⟨hsize, hfit, horder, hrule, l.check_eq_ok_iff.mpr ⟨hwidth, hheight, hrow, hbuffer⟩⟩
  · rintro ⟨hsize, hfit, horder, hrule, hcheck⟩
    obtain ⟨-, -, hrow, hbuffer⟩ := l.check_eq_ok_iff.mp hcheck
    exact ⟨hsize, hfit, ((hkeeps _ hsize).mem_iff _).mpr ⟨hrule, hrow, hbuffer⟩, horder⟩

/-- Two sizes and three rules.  Two rules come to the same stride for the wider
size, where the third does not hold a row; for the other size the last two come
to the same. -/
def smallSpace : Candidates where
  sizes := [.wrap 2 1, .wrap 1 2]
  fits := [.exact]
  strides := [.bytes 8, .aligned 4 0, .bytes 4]
  orders := [.rgb, .bgr]

theorem smallSpace_inWord : smallSpace.InWord := by
  intro size hs alignment extraBlocks hr
  have hrule : alignment = 4 ∧ extraBlocks = 0 := by simpa [smallSpace] using hr
  obtain ⟨rfl, rfl⟩ := hrule
  revert size
  decide

theorem enumerate_total_small :
    smallSpace.check = .ok () ∧ smallSpace.InWord ∧ ∃ ls, smallSpace.enumerate = .ok ls ∧ ls.Nodup
      ∧ ls.map Layout.stride = [8, 8, 8, 8, 4, 4] := by
  have hcheck : smallSpace.check = .ok () := by decide
  obtain ⟨ls, -, hls, -, -, -, hnodup⟩ := enumerate_total hcheck smallSpace_inWord
  refine ⟨hcheck, smallSpace_inWord, ls, hls, hnodup (by decide) (by decide) (by decide), ?_⟩
  have heq : smallSpace.enumerate = .ok (smallSpace.nest smallSpace.kept) := by decide +kernel
  obtain rfl : _ = ls := Except.ok.inj (heq.symm.trans hls)
  decide +kernel

end Candidates

end Scanout
