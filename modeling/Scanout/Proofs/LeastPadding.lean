import Mathlib.Data.Prod.Lex
import Scanout.Proofs.Verdicts

/-!
# The trial that padding selects

Without an operator a trial is selected in two stages.  Among the delivered
trials whose rows have padding it is the one with the least padding, and of
those with as little the one with the lowest number.  If no delivered trial has
padding, it is the delivered trial with the lowest number.  `Trial.Preferred`
says this of a trial of a list without saying how it is found, and whatever is
selected is preferred (`Trial.preferred_of_selectByPadding`).

Whether a trial is preferred depends on nothing but which delivered trials there
are (`Trial.Preferred.of_same`).  So trials that failed may come and go.  A list
may also be put into another order, as long as no two of its delivered trials
share a number, since then only one of them is preferred
(`Trial.Preferred.unique`).
-/

namespace Scanout

namespace Trial

variable {ts us : List Trial} {t u : Trial}

/-! ## The least trial by a key -/

section Key

variable {κ : Type} [LinearOrder κ] {key : Trial → κ} {before : Trial → Trial → Bool}

/-- No trial of a list has a lesser key than its least one. -/
theorem key_le_of_least (hkey : ∀ t u, before t u = true ↔ key t < key u)
    (h : least before ts = some t) (hu : u ∈ ts) :
    key t ≤ key u := by
  -- the least trial of the rest is another one, so the trial varies with the list
  induction ts generalizing t with
  | nil => cases hu
  | cons v ts ih =>
      rw [least] at h
      cases hrest : least before ts with
      | none =>
          rw [hrest] at h
          cases h
          rw [least_eq_none_iff.mp hrest, List.mem_singleton] at hu
          rw [hu]
      | some w =>
          rw [hrest] at h
          dsimp only at h
          split at h
          · rename_i hless
            cases h
            obtain hu | hu := List.mem_cons.mp hu
            · rw [hu]
              exact ((hkey t v).mp hless).le
            · exact ih hrest hu
          · rename_i hless
            cases h
            obtain hu | hu := List.mem_cons.mp hu
            · rw [hu]
            · have hle : key v ≤ key w := not_lt.mp fun hlt => hless ((hkey w v).mpr hlt)
              exact hle.trans (ih hrest hu)

end Key

/-- Trials with padding are compared by their padding first, then by their numbers. -/
def paddingKey (t : Trial) : Nat ×ₗ Nat := toLex (t.layout.padding, t.index)

theorem lessPadding_iff (t u : Trial) : lessPadding t u = true ↔ paddingKey t < paddingKey u := by
  rw [lessPadding, paddingKey, paddingKey, Prod.Lex.toLex_lt_toLex]
  simp

theorem earlier_iff (t u : Trial) : earlier t u = true ↔ t.index < u.index := decide_eq_true_iff

/-! ## The preferred trial -/

/-- Some delivered trial has padding. -/
def SomePadded (ts : List Trial) : Prop := ∃ u ∈ ts, u.delivered = true ∧ 0 < u.layout.padding

/-- A delivered trial of a list is preferred: if some delivered trial has
padding, it has padding too, and no such trial is less by padding and number;
otherwise no delivered trial has a lower number. -/
structure Preferred (ts : List Trial) (t : Trial) : Prop where
  mem : t ∈ ts
  delivered : t.delivered = true
  padded : SomePadded ts → 0 < t.layout.padding
    ∧ ∀ u ∈ ts, u.delivered = true → 0 < u.layout.padding → t.paddingKey ≤ u.paddingKey
  unpadded : ¬ SomePadded ts → ∀ u ∈ ts, u.delivered = true → t.index ≤ u.index

theorem preferred_of_selectByPadding (h : selectByPadding ts = some t) : Preferred ts t := by
  obtain ⟨hmem, hdelivered⟩ := mem_of_selectByPadding h
  unfold selectByPadding at h
  dsimp only at h
  split at h
  · rename_i hleast
    cases h
    have hpadding : 0 < t.layout.padding := by
      simpa using (List.mem_filter.mp (mem_of_least hleast)).2
    refine ⟨hmem, hdelivered, fun _ => ⟨hpadding, fun u hu hud hup => ?_⟩, fun hnone => ?_⟩
    · exact key_le_of_least lessPadding_iff hleast (by simp [hu, hud, hup])
    · exact absurd ⟨t, hmem, hdelivered, hpadding⟩ hnone
  · rename_i hleast
    refine ⟨hmem, hdelivered, fun hsome => ?_, fun _ u hu hud => ?_⟩
    · obtain ⟨u, hu, hud, hup⟩ := hsome
      have hin : u ∈ (ts.filter delivered).filter fun t => decide (0 < t.layout.padding) := by
        simp [hu, hud, hup]
      rw [least_eq_none_iff.mp hleast] at hin
      cases hin
    · exact key_le_of_least earlier_iff h (List.mem_filter.mpr ⟨hu, hud⟩)

theorem selectByPadding_eq_none_iff :
    selectByPadding ts = none ↔ ∀ t ∈ ts, t.delivered = false := by
  rw [← Option.not_isSome_iff_eq_none, selectByPadding_isSome, Nat.not_lt, Nat.le_zero,
    List.countP_eq_zero]
  simp

/-! ## Which lists select the same -/

/-- Lists with the same delivered trials prefer the same. -/
theorem Preferred.of_same (hsame : ∀ v, v.delivered = true → (v ∈ us ↔ v ∈ ts))
    (h : Preferred ts t) :
    Preferred us t := by
  have hpadded : SomePadded us ↔ SomePadded ts := by
    refine exists_congr fun v => ⟨?_, ?_⟩
    · exact fun ⟨hv, hd, hp⟩ => ⟨(hsame v hd).mp hv, hd, hp⟩
    · exact fun ⟨hv, hd, hp⟩ => ⟨(hsame v hd).mpr hv, hd, hp⟩
  refine ⟨(hsame t h.delivered).mpr h.mem, h.delivered, fun hus => ?_, fun hus u hu hud => ?_⟩
  · obtain ⟨hpos, hle⟩ := h.padded (hpadded.mp hus)
    exact ⟨hpos, fun u hu hud => hle u ((hsame u hud).mp hu) hud⟩
  · exact h.unpadded (mt hpadded.mpr hus) u ((hsame u hud).mp hu) hud

theorem Preferred.index_eq (h : Preferred ts t) (h' : Preferred ts u) : t.index = u.index := by
  by_cases hsome : SomePadded ts
  · obtain ⟨ht, htle⟩ := h.padded hsome
    obtain ⟨hu, hule⟩ := h'.padded hsome
    have hkey : t.paddingKey = u.paddingKey :=
      le_antisymm (htle u h'.mem h'.delivered hu) (hule t h.mem h.delivered ht)
    exact congrArg (fun key => (ofLex key).2) hkey
  · exact le_antisymm (h.unpadded hsome u h'.mem h'.delivered)
      (h'.unpadded hsome t h.mem h.delivered)

/-- Where the delivered trials have different numbers, one trial at most is
preferred. -/
theorem Preferred.unique (hnodup : ((ts.filter Trial.delivered).map index).Nodup)
    (h : Preferred ts t)
    (h' : Preferred ts u) : t = u := by
  have ht : t ∈ ts.filter Trial.delivered := List.mem_filter.mpr ⟨h.mem, h.delivered⟩
  have hu : u ∈ ts.filter Trial.delivered := List.mem_filter.mpr ⟨h'.mem, h'.delivered⟩
  exact List.inj_on_of_nodup_map hnodup ht hu (h.index_eq h')

/-- Trials that failed do not matter. -/
theorem selectByPadding_of_filter (h : us.filter delivered = ts.filter delivered) :
    selectByPadding us = selectByPadding ts := by
  unfold selectByPadding
  rw [h]

/-- If the delivered trials have different numbers, their order does not matter. -/
theorem selectByPadding_of_perm (h : (us.filter delivered).Perm (ts.filter delivered))
    (hnodup : ((ts.filter delivered).map index).Nodup) :
    selectByPadding us = selectByPadding ts := by
  have hsame : ∀ v, v.delivered = true → (v ∈ us ↔ v ∈ ts) := by
    intro v hv
    simpa [hv] using h.mem_iff (a := v)
  cases hts : selectByPadding ts with
  | none =>
      rw [selectByPadding_eq_none_iff] at hts ⊢
      intro v hv
      by_contra hd
      rw [Bool.not_eq_false] at hd
      exact absurd (hts v ((hsame v hd).mp hv)) (by simp [hd])
  | some t =>
      have ht := preferred_of_selectByPadding hts
      cases hus : selectByPadding us with
      | none =>
          have hd := selectByPadding_eq_none_iff.mp hus t ((hsame t ht.delivered).mpr ht.mem)
          exact absurd ht.delivered (by simp [hd])
      | some u =>
          have hu := (preferred_of_selectByPadding hus).of_same fun v hv => (hsame v hv).symm
          rw [hu.unique hnodup ht]

/-- Padding selects no trial exactly when none was delivered, and else a
preferred one.  What it selects depends on the delivered trials alone: trials
that failed can be added and removed anywhere.  If no two delivered trials share
a number, the list can moreover be put into any order. -/
theorem selectByPadding_prefers (ts : List Trial) :
    (selectByPadding ts = none ↔ ∀ t ∈ ts, t.delivered = false)
      ∧ (∀ t, selectByPadding ts = some t → Preferred ts t)
      ∧ (∀ us, us.filter delivered = ts.filter delivered → selectByPadding us = selectByPadding ts)
      ∧ ∀ us, (us.filter delivered).Perm (ts.filter delivered) →
          ((ts.filter delivered).map index).Nodup → selectByPadding us = selectByPadding ts := by
  refine ⟨selectByPadding_eq_none_iff, fun t h => ?_, fun us h => ?_, fun us h hnodup => ?_⟩
  · exact preferred_of_selectByPadding h
  · exact selectByPadding_of_filter h
  · exact selectByPadding_of_perm h hnodup

/-- A failed trial with the least padding, one without padding and two with the
same, and then the same delivered trials the other way round with another failed
one between them. -/
theorem selectByPadding_prefers_shuffled :
    let narrow : Layout := { Layout.standard with stride := 2401 }
    let packed : Layout := { Layout.standard with stride := 2400 }
    let ts : List Trial := [⟨1, narrow, some "disk full", .unrated⟩, ⟨2, packed, none, .unrated⟩,
      ⟨3, .standard, none, .unrated⟩, ⟨4, .standard, none, .unrated⟩]
    let us : List Trial := [⟨4, .standard, none, .unrated⟩, ⟨3, .standard, none, .unrated⟩,
      ⟨5, narrow, some "busy", .unrated⟩, ⟨2, packed, none, .unrated⟩]
    (us.filter delivered).Perm (ts.filter delivered) ∧ ((ts.filter delivered).map index).Nodup
      ∧ selectByPadding us = some ⟨3, .standard, none, .unrated⟩
      ∧ Preferred ts ⟨3, .standard, none, .unrated⟩
      ∧ selectByPadding (ts.filter delivered) = selectByPadding ts := by
  intro narrow packed ts us
  have hperm : (us.filter delivered).Perm (ts.filter delivered) := by decide +kernel
  have hnodup : ((ts.filter delivered).map index).Nodup := by decide +kernel
  have hselected : selectByPadding ts = some ⟨3, .standard, none, .unrated⟩ := by decide +kernel
  obtain ⟨-, hpreferred, hfailed, hshuffled⟩ := selectByPadding_prefers ts
  refine ⟨hperm, hnodup, (hshuffled us hperm hnodup).trans hselected, hpreferred _ hselected,
    hfailed _ ?_⟩
  simp

end Trial

end Scanout
