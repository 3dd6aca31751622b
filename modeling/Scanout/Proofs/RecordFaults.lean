import Scanout.Proofs.RecordText

/-!
# Faults in records

A record is checked member by member, and then its layout is checked as a whole.
What a record must have to pass a check (`Record.Passes`), and the error if it
does not (`Record.Fails`), is said of each check apart from the others, and so
is which layout a record describes (`Record.Describes`).

The order of the checks matters only to the error.  A record that passes all of
them yields the layout that it describes, and any other ends in the error of the
first check that it does not pass (`Record.layout_total`).
-/

namespace Scanout

theorem bind_eq_error {ε α β : Type} {x : Except ε α} {f : α → Except ε β} {e : ε} :
    x >>= f = .error e ↔ x = .error e ∨ ∃ a, x = .ok a ∧ f a = .error e := by
  cases x <;> simp [bind, Except.bind]

namespace Record

/-! ## What is checked -/

/-- The numbers of the layout are those of the record, and the newer spelling of
its order and its fit goes before the older. -/
structure Describes (r : Record) (l : Layout) : Prop where
  width : r.width = some (l.width : Int)
  height : r.height = some (l.height : Int)
  stride : r.stride = some (l.stride : Int)
  order : (r.channelOrder <|> r.swapBgr.map fun blueFirst => if blueFirst then .bgr else .rgb)
    = some l.order
  fit : (r.fitMode <|> r.mode) = some l.fit

/-- What a record is checked for. -/
inductive Check where
  | width
  | height
  | stride
  | order
  | fit
  /-- The layout as a whole. -/
  | layout
deriving DecidableEq, Repr

/-- The checks in their order. -/
def Check.all : List Check := [.width, .height, .stride, .order, .fit, .layout]

/-- The number is the side of a canvas. -/
def IsSide (n : Option Int) : Prop := ∃ m : Nat, n = some (m : Int) ∧ 1 ≤ m ∧ m ≤ 4294967295

/-- What a record must have to pass a check. -/
def Passes (r : Record) : Check → Prop
  | .width => IsSide r.width
  | .height => IsSide r.height
  | .stride => ∃ m : Nat, r.stride = some (m : Int)
  | .order => r.channelOrder.isSome ∨ r.swapBgr.isSome
  | .fit => r.fitMode.isSome ∨ r.mode.isSome
  | .layout => ∀ l, r.Describes l → l.check = .ok ()

/-- The error of a number that is not the side of a canvas. -/
inductive SideFails (field : String) : Option Int → Error → Prop where
  | missing : SideFails field none (.config field "missing")
  | range {n : Int} : n < 1 ∨ 4294967295 < n →
      SideFails field (some n) (.config field (toString n ++ " is not a positive integer"))

/-- The error of a check that a record does not pass. -/
inductive Fails (r : Record) : Check → Error → Prop where
  | width {e} : SideFails "width" r.width e → Fails r .width e
  | height {e} : SideFails "height" r.height e → Fails r .height e
  | noStride : r.stride = none → Fails r .stride (.config "stride" "missing")
  | negative {n : Int} : r.stride = some n → n < 0 →
      Fails r .stride (.config "stride" (toString n ++ " is negative"))
  | noOrder : r.channelOrder = none → r.swapBgr = none →
      Fails r .order (.config "channel_order" "missing")
  | noFit : r.fitMode = none → r.mode = none → Fails r .fit (.config "fit_mode" "missing")
  | layout {l e} : r.Describes l → l.check = .error e → Fails r .layout e

/-- The error of the first of several checks that a record does not pass. -/
inductive FirstFails (r : Record) : List Check → Error → Prop where
  | here {c cs e} : r.Fails c e → FirstFails r (c :: cs) e
  | there {c cs e} : r.Passes c → FirstFails r cs e → FirstFails r (c :: cs) e

/-! ## What a record describes -/

section Describes

variable {r : Record} {l l' : Layout}

theorem orderOf_eq_ok_iff {newer : Option ChannelOrder} {older : Option Bool} {o : ChannelOrder} :
    orderOf newer older = .ok o
      ↔ (newer <|> older.map fun blueFirst => if blueFirst then .bgr else .rgb) = some o := by
  rcases newer with _ | newer
  · rcases older with _ | _ | _
    all_goals simp [orderOf]
  · simp [orderOf]

theorem fitOf_eq_ok_iff {newer older : Option Fit} {f : Fit} :
    fitOf newer older = .ok f ↔ (newer <|> older) = some f := by
  rcases newer with _ | newer
  · rcases older with _ | older
    all_goals simp [fitOf]
  · simp [fitOf]

theorem says_iff_describes : r.Says l ↔ r.Describes l :=
  ⟨fun h => ⟨h.width, h.height, h.stride, orderOf_eq_ok_iff.mp h.order, fitOf_eq_ok_iff.mp h.fit⟩,
    fun h => ⟨h.width, h.height, h.stride, orderOf_eq_ok_iff.mpr h.order,
      fitOf_eq_ok_iff.mpr h.fit⟩⟩

/-- A record describes one layout at most. -/
theorem Describes.unique (h : r.Describes l) (h' : r.Describes l') : l = l' := by
  have hwidth := Int.ofNat.inj (Option.some.inj (h.width.symm.trans h'.width))
  have hheight := Int.ofNat.inj (Option.some.inj (h.height.symm.trans h'.height))
  have hstride := Int.ofNat.inj (Option.some.inj (h.stride.symm.trans h'.stride))
  have horder := Option.some.inj (h.order.symm.trans h'.order)
  have hfit := Option.some.inj (h.fit.symm.trans h'.fit)
  obtain ⟨⟨width, height, _, _⟩, stride, order, fit⟩ := l
  obtain ⟨⟨width', height', _, _⟩, stride', order', fit'⟩ := l'
  cases hwidth
  cases hheight
  cases hstride
  cases horder
  cases hfit
  rfl

end Describes

/-! ## Single checks -/

/-- A computation ends in the error of a check if the record does not pass it,
and yields a value if it does. -/
structure Decides {α : Type} (r : Record) (c : Check) (x : Except Error α) : Prop where
  fails : ∀ e, x = .error e ↔ r.Fails c e
  passes : (∃ a, x = .ok a) ↔ r.Passes c

section Checks

variable {r : Record} {l : Layout} {e : Error} {field : String} {n : Option Int} {c : Check}
  {cs : List Check}

theorem side_eq_error_iff : side field n = .error e ↔ SideFails field n e := by
  cases n with
  | none =>
      rw [side]
      constructor
      · intro h
        cases h
        exact .missing
      · intro h
        cases h
        rfl
  | some n =>
      rw [side]
      split
      · constructor
        · intro h
          cases h
        · intro h
          cases h with
          | range hn => omega
      · constructor
        · intro h
          cases h
          exact .range (by omega)
        · intro h
          cases h
          rfl

theorem exists_side_iff : (∃ m, side field n = .ok m) ↔ IsSide n := by
  constructor
  · rintro ⟨m, h⟩
    obtain rfl := side_eq_ok h
    rw [side] at h
    split at h
    · exact ⟨m.val, rfl, by omega, by omega⟩
    · cases h
  · rintro ⟨m, rfl, hpos, hle⟩
    exact ⟨_, side_natCast field hpos (by omega)⟩

theorem decides_width (r : Record) : Decides r .width (side "width" r.width) where
  fails e := side_eq_error_iff.trans ⟨.width, fun h => by cases h; assumption⟩
  passes := exists_side_iff

theorem decides_height (r : Record) : Decides r .height (side "height" r.height) where
  fails e := side_eq_error_iff.trans ⟨.height, fun h => by cases h; assumption⟩
  passes := exists_side_iff

theorem decides_stride (r : Record) : Decides r .stride (strideOf r.stride) where
  fails e := by
    constructor
    · intro h
      cases hn : r.stride with
      | none =>
          rw [hn, strideOf] at h
          cases h
          exact .noStride hn
      | some n =>
          rw [hn, strideOf] at h
          split at h
          · cases h
          · cases h
            exact .negative hn (by omega)
    · intro h
      cases h with
      | noStride hn =>
          rw [hn]
          rfl
      | negative hn hneg =>
          rw [hn, strideOf, if_neg (by omega)]
  passes := exists_congr fun _ => strideOf_eq_ok_iff

theorem decides_order (r : Record) : Decides r .order (orderOf r.channelOrder r.swapBgr) where
  fails e := by
    constructor
    · intro h
      cases hnewer : r.channelOrder with
      | some o =>
          rw [hnewer] at h
          cases h
      | none =>
          rcases holder : r.swapBgr with _ | _ | _
          all_goals rw [hnewer, holder] at h
          all_goals cases h
          exact .noOrder hnewer holder
    · rintro ⟨⟩
      rename_i hnewer holder
      rw [hnewer, holder]
      rfl
  passes := by
    rw [Passes]
    rcases r.channelOrder with _ | o
    · rcases r.swapBgr with _ | _ | _
      all_goals simp [orderOf]
    · simp [orderOf]

theorem decides_fit (r : Record) : Decides r .fit (fitOf r.fitMode r.mode) where
  fails e := by
    constructor
    · intro h
      cases hnewer : r.fitMode with
      | some f =>
          rw [hnewer] at h
          cases h
      | none =>
          cases holder : r.mode with
          | some f =>
              rw [hnewer, holder] at h
              cases h
          | none =>
              rw [hnewer, holder] at h
              cases h
              exact .noFit hnewer holder
    · rintro ⟨⟩
      rename_i hnewer holder
      rw [hnewer, holder]
      rfl
  passes := by
    rw [Passes]
    rcases r.fitMode with _ | f
    · rcases r.mode with _ | f
      all_goals simp [fitOf]
    · simp [fitOf]

theorem decides_layout (h : r.Describes l) : Decides r .layout l.check where
  fails e := by
    refine ⟨.layout h, fun hfails => ?_⟩
    cases hfails with
    | layout h' hcheck => rwa [h.unique h']
  passes := by
    constructor
    · rintro ⟨⟨⟩, hcheck⟩ l' h'
      rwa [← h.unique h']
    · exact fun hpasses => ⟨(), hpasses l h⟩

/-! ## All checks -/

theorem Decides.bind {α β : Type} {x : Except Error α} {f : α → Except Error β} (h : Decides r c x)
    (hrest : ∀ a, x = .ok a → (f a = .error e ↔ r.FirstFails cs e)) :
    x >>= f = .error e ↔ r.FirstFails (c :: cs) e := by
  rw [bind_eq_error]
  constructor
  · rintro (hx | ⟨a, ha, hfa⟩)
    · exact .here ((h.fails e).mp hx)
    · exact .there (h.passes.mp ⟨a, ha⟩) ((hrest a ha).mp hfa)
  · intro hfirst
    cases hfirst with
    | here hfails => exact .inl ((h.fails e).mpr hfails)
    | there hpasses hfirst =>
        obtain ⟨a, ha⟩ := h.passes.mpr hpasses
        exact .inr ⟨a, ha, (hrest a ha).mpr hfirst⟩

theorem layout_eq_error_iff : r.layout = .error e ↔ r.FirstFails Check.all e := by
  refine r.decides_width.bind fun width hwidth => ?_
  refine r.decides_height.bind fun height hheight => ?_
  refine r.decides_stride.bind fun stride hstride => ?_
  refine r.decides_order.bind fun order horder => ?_
  refine r.decides_fit.bind fun fit hfit => ?_
  have hdescribes : r.Describes
      ⟨⟨width.val, height.val, width.property, height.property⟩, stride, order, fit⟩ :=
    says_iff_describes.mp
      ⟨side_eq_ok hwidth, side_eq_ok hheight, strideOf_eq_ok_iff.mp hstride, horder, hfit⟩
  refine (decides_layout hdescribes).bind fun _ _ => ?_
  exact ⟨fun h => (nomatch h), fun h => nomatch h⟩

theorem SideFails.not_isSide (h : SideFails field n e) : ¬ IsSide n := by
  rintro ⟨m, rfl, hpos, hle⟩
  cases h with
  | range hn => omega

theorem Fails.not_passes (h : r.Fails c e) : ¬ r.Passes c := by
  intro hpasses
  cases h with
  | width hside => exact hside.not_isSide hpasses
  | height hside => exact hside.not_isSide hpasses
  | noStride hn =>
      obtain ⟨m, hm⟩ := hpasses
      cases hn.symm.trans hm
  | negative hn hneg =>
      obtain ⟨m, hm⟩ := hpasses
      cases hn.symm.trans hm
      omega
  | noOrder hnewer holder =>
      rw [Passes, hnewer, holder] at hpasses
      rcases hpasses with h | h
      all_goals cases h
  | noFit hnewer holder =>
      rw [Passes, hnewer, holder] at hpasses
      rcases hpasses with h | h
      all_goals cases h
  | layout hdescribes hcheck => cases hcheck.symm.trans (hpasses _ hdescribes)

theorem FirstFails.exists_fails (h : r.FirstFails cs e) : ∃ c, r.Fails c e := by
  induction h with
  | here hfails => exact ⟨_, hfails⟩
  | there _ _ ih => exact ih

theorem layout_eq_ok_iff_describes : r.layout = .ok l ↔ r.Describes l ∧ l.check = .ok () := by
  rw [layout_eq_ok_iff, says_iff_describes]

/-- A record yields a layout if and only if it passes all checks. -/
theorem exists_layout_iff : (∃ l, r.layout = .ok l) ↔ ∀ c, r.Passes c := by
  constructor
  · rintro ⟨l, h⟩ c
    obtain ⟨hmembers, hcheck⟩ := layout_eq_ok_iff.mp h
    have hdescribes := says_iff_describes.mp hmembers
    obtain ⟨hw, hh, -, -⟩ := l.check_eq_ok_iff.mp hcheck
    cases c with
    | width => exact ⟨l.width, hmembers.width, hw, Nat.le_of_lt_succ l.width_lt⟩
    | height => exact ⟨l.height, hmembers.height, hh, Nat.le_of_lt_succ l.height_lt⟩
    | stride => exact ⟨l.stride, hmembers.stride⟩
    | order => exact r.decides_order.passes.mp ⟨l.order, hmembers.order⟩
    | fit => exact r.decides_fit.passes.mp ⟨l.fit, hmembers.fit⟩
    | layout => exact (decides_layout hdescribes).passes.mp ⟨(), hcheck⟩
  · intro hpasses
    cases h : r.layout with
    | ok l => exact ⟨l, rfl⟩
    | error e =>
        obtain ⟨c, hfails⟩ := (layout_eq_error_iff.mp h).exists_fails
        exact absurd (hpasses c) hfails.not_passes

end Checks

/-- A record that passes all checks yields the layout that it describes, and any
other ends in the error of the first check that it does not pass.  The bytes of
a row of a layout that it describes are counted by a machine word. -/
theorem layout_total (r : Record) :
    (∀ l, r.layout = .ok l ↔ r.Describes l ∧ l.check = .ok ())
      ∧ ((∃ l, r.layout = .ok l) ↔ ∀ c, r.Passes c)
      ∧ (∀ e, r.layout = .error e ↔ r.FirstFails Check.all e)
      ∧ ∀ l, r.Describes l → l.rowBytes < wordLimit := by
  refine ⟨fun _ => layout_eq_ok_iff_describes, exists_layout_iff,
    fun _ => layout_eq_error_iff, fun l _ => ?_⟩
  have hwidth := l.width_lt
  rw [Layout.rowBytes, wordLimit]
  omega

/-- A record in the older spelling yields its layout.  If its height is out of
range and its stride is negative, the height is what is reported. -/
theorem layout_total_small :
    let r : Record :=
      { width := some 1, height := some 2, stride := some 5, swapBgr := some true,
        mode := some .exact }
    let l : Layout := ⟨⟨1, 2, by decide, by decide⟩, 5, .bgr, .exact⟩
    r.layout = .ok l ∧ l.rowBytes < wordLimit
      ∧ Record.layout { r with height := some 4294967296, stride := some (-1) }
        = .error (.config "height" "4294967296 is not a positive integer") := by
  intro r l
  obtain ⟨hok, -, -, hword⟩ := layout_total r
  obtain ⟨-, -, herror, -⟩ := layout_total { r with height := some 4294967296, stride := some (-1) }
  have hdescribes : r.Describes l := ⟨rfl, rfl, rfl, rfl, rfl⟩
  refine ⟨(hok l).mpr ⟨hdescribes, by decide⟩, hword l hdescribes,
    (herror _).mpr (.there ?_ (.here (.height ?_)))⟩
  · exact ⟨1, rfl, by decide, by decide⟩
  · exact .range (.inr (by decide))

end Record

end Scanout
