import Mathlib.Data.List.Forall2
import Scanout.Proofs.Encoding
import Scanout.Sweep

/-!
# Plans hold usable layouts only

A plan comes from two sources, and each rejects on its own.  A candidate space
rejects sizes without pixels as a whole and drops the strides that do not hold a
row or that make a frame too large, while single layouts go through the check
one by one.  Both come to the same: every layout of a plan passes the check
(`Sweep.Built.check`), and a plan is never empty.
-/

namespace Scanout

/-- A computation over a list yields what it yields for each element. -/
theorem mapM_eq_ok_iff {ε α β : Type} {f : α → Except ε β} {as : List α} {bs : List β} :
    as.mapM f = .ok bs ↔ List.Forall₂ (fun a b => f a = .ok b) as bs := by
  induction as generalizing bs with
  | nil =>
      rw [List.mapM_nil, List.forall₂_nil_left_iff]
      exact ⟨fun h => by cases h; rfl, fun h => by rw [h]; rfl⟩
  | cons a as ih =>
      rw [List.mapM_cons, List.forall₂_cons_left_iff, bind_eq_ok]
      constructor
      · rintro ⟨b, hb, h⟩
        obtain ⟨bs', hbs, h⟩ := bind_eq_ok.mp h
        cases h
        exact ⟨b, bs', hb, ih.mp hbs, rfl⟩
      · rintro ⟨b, bs', hb, hbs, rfl⟩
        exact ⟨b, hb, bind_eq_ok.mpr ⟨bs', ih.mpr hbs, rfl⟩⟩

/-- What it yields is what it yields for some element. -/
theorem mem_mapM_iff {ε α β : Type} {f : α → Except ε β} {as : List α} {bs : List β}
    (h : as.mapM f = .ok bs) {b : β} :
    b ∈ bs ↔ ∃ a ∈ as, f a = .ok b := by
  induction mapM_eq_ok_iff.mp h with
  | nil => simp
  | cons hhead htail ih => simp [ih (mapM_eq_ok_iff.mpr htail), hhead, eq_comm]

/-! ## Candidate spaces -/

namespace Candidates

theorem positive_of_check {c : Candidates} (h : c.check = .ok ()) {size : Size}
    (hs : size ∈ c.sizes) :
    size.positive = true := by
  unfold check at h
  split at h
  · cases h
  · split at h
    · cases h
    · rename_i hnone
      have hsize := List.find?_eq_none.mp hnone size hs
      simpa using hsize

theorem holds_of_mem_stridesFor {c : Candidates} {size : Size} {strides : List Nat}
    (h : c.stridesFor size = .ok strides) {n : Nat} (hn : n ∈ strides) : holds size n = true := by
  obtain ⟨all, -, h⟩ := bind_eq_ok.mp h
  cases h
  exact (List.mem_filter.mp ((mem_firsts n _).mp hn)).2

theorem mem_layoutsOf {c : Candidates} {size : Size} {strides : List Nat} {l : Layout}
    (h : l ∈ c.layoutsOf size strides) : l.toSize = size ∧ l.stride ∈ strides := by
  obtain ⟨fit, -, h⟩ := List.mem_flatMap.mp h
  obtain ⟨stride, hstride, h⟩ := List.mem_flatMap.mp h
  obtain ⟨order, -, rfl⟩ := List.mem_map.mp h
  exact ⟨rfl, hstride⟩

/-- A stride that holds the rows of a size with pixels is one that the check accepts. -/
theorem check_of_holds {l : Layout} (hp : l.toSize.positive = true)
    (h : holds l.toSize l.stride = true) :
    l.check = .ok () := by
  obtain ⟨hw, hh⟩ := l.positive_iff.mp hp
  simp only [holds, Bool.and_eq_true, decide_eq_true_eq, frameFits_iff] at h
  exact l.check_eq_ok_iff.mpr ⟨hw, hh, h.1, h.2⟩

theorem check_of_mem_enumerate {c : Candidates} {ls : List Layout} (h : c.enumerate = .ok ls)
    {l : Layout}
    (hl : l ∈ ls) : l.check = .ok () := by
  unfold enumerate at h
  split at h
  · cases h
  · rename_i hcheck
    obtain ⟨groups, hgroups, h⟩ := bind_eq_ok.mp h
    cases h
    obtain ⟨group, hgroup, hl⟩ := List.mem_flatten.mp hl
    obtain ⟨size, hsize, hof⟩ := (mem_mapM_iff hgroups).mp hgroup
    obtain ⟨strides, hstrides, hof⟩ := bind_eq_ok.mp hof
    cases hof
    obtain ⟨rfl, hstride⟩ := mem_layoutsOf hl
    exact check_of_holds (positive_of_check hcheck hsize) (holds_of_mem_stridesFor hstrides hstride)

end Candidates

/-! ## Plans -/

namespace Sweep

/-- A list that is not empty is a plan. -/
def demandSome : List Layout → Outcome (List Layout)
  | [] => report (.config "candidates" "the sweep has no valid configuration to try")
  | plan => return plan

theorem planOf_eq_bind (candidates : Option Candidates) (layouts : List Layout) :
    planOf candidates layouts = (candidates.elim (.ok []) Candidates.enumerate
      >>= fun listed => demandSome (listed ++ layouts.filter Layout.valid)) := by
  cases candidates with
  | none => rfl
  | some space => rfl

theorem demandSome_eq_ok {ls plan : List Layout} (h : demandSome ls = .ok plan) :
    plan = ls ∧ plan ≠ [] := by
  cases ls with
  | nil => cases h
  | cons l ls =>
      cases h
      exact ⟨rfl, List.cons_ne_nil l ls⟩

theorem planOf_eq_ok {candidates : Option Candidates} {layouts plan : List Layout}
    (h : planOf candidates layouts = .ok plan) :
    ∃ listed, candidates.elim (.ok []) Candidates.enumerate = .ok listed
      ∧ plan = listed ++ layouts.filter Layout.valid ∧ plan ≠ [] := by
  rw [planOf_eq_bind] at h
  obtain ⟨listed, hlisted, h⟩ := bind_eq_ok.mp h
  obtain ⟨heq, hne⟩ := demandSome_eq_ok h
  exact ⟨listed, hlisted, heq, hne⟩

/-- The sweep was set up from a candidate space and single layouts. -/
def Built (c : Sweep) : Prop := ∃ candidates layouts, planOf candidates layouts = .ok c.plan

variable {c : Sweep}

theorem Built.ne_nil (h : c.Built) : c.plan ≠ [] := by
  obtain ⟨candidates, layouts, hplan⟩ := h
  obtain ⟨listed, -, -, hne⟩ := planOf_eq_ok hplan
  exact hne

/-- Every layout of a plan passes the check. -/
theorem Built.check (h : c.Built) {l : Layout} (hl : l ∈ c.plan) : l.check = .ok () := by
  obtain ⟨candidates, layouts, hplan⟩ := h
  obtain ⟨listed, hlisted, heq, -⟩ := planOf_eq_ok hplan
  rw [heq, List.mem_append] at hl
  cases hl with
  | inl hl =>
      cases candidates with
      | none =>
          cases hlisted
          cases hl
      | some space => exact Candidates.check_of_mem_enumerate hlisted hl
  | inr hl => exact l.valid_iff.mp (List.mem_filter.mp hl).2

/-- A sweep of two layouts that nobody watches. -/
def smallSweep : Sweep where
  plan := [smallLayout, { smallLayout with order := .rgb }]
  selection := .unattended
  store := some ⟨"best"⟩

theorem smallSweep_built : smallSweep.Built := ⟨none, smallSweep.plan, rfl⟩

end Sweep

end Scanout
