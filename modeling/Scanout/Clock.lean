/-!
# Clocks and tickers

Time is counted in whole milliseconds.  A `Clock` knows the time and the moment
at which everything is to stop, if one is known.  Whoever waits, waits in a
`race` against that moment.

The moment to stop and what is waited for may come at once.  Nothing decides
which of the two is noticed then, and it may be another one every time.  So a
clock carries a schedule, which settles such a `Tie` whenever one comes up.
What is proved of every clock is proved of every schedule.

A `Ticker` gives the rhythm of a repeated action.  Its ticks are due every
period, counted in nanoseconds, and a tick fires at the first millisecond at
which it is due.  A tick that fires more than five milliseconds late makes the
ticker skip the ticks that it missed.
-/

namespace Scanout

/-! ## Clocks -/

/-- What is noticed where the moment to stop and what is waited for come at
once. -/
inductive Tie where
  | stop
  | wait
deriving DecidableEq, Repr

/-- The time, and the moment to stop. -/
structure Clock where
  /-- Milliseconds since the start. -/
  now : Nat := 0
  /-- The moment to stop, if it is known. -/
  stopAt : Option Nat := none
  /-- How ties are settled, in the order in which they come up.  The stop wins
  those that are not listed. -/
  ties : List Tie := []
deriving DecidableEq, Repr

/-- How a wait ends. -/
inductive Race where
  /-- What was waited for came. -/
  | reached (clock : Clock)
  /-- The moment to stop came first. -/
  | stopped (clock : Clock)
  /-- Neither will ever come. -/
  | stalled
deriving DecidableEq, Repr

namespace Clock

/-- The moment to stop has come. -/
def stopped (c : Clock) : Bool :=
  match c.stopAt with
  | some t => t ≤ c.now
  | none => false

/-- The clock after some milliseconds. -/
def advance (c : Clock) (ms : Nat) : Clock := { c with now := c.now + ms }

@[simp] theorem advance_zero (c : Clock) : c.advance 0 = c := rfl

/-- The clock at a moment, or now if that has passed. -/
def reach (c : Clock) (t : Nat) : Clock := { c with now := max c.now t }

/-- Everything is to stop now, if not earlier. -/
def stop (c : Clock) : Clock :=
  { c with stopAt := some (match c.stopAt with | some t => min t c.now | none => c.now) }

/-- How a wait ends that ends now, where the moment to stop has come as well. -/
def settle (c : Clock) : Race :=
  match c.ties with
  | .wait :: rest => .reached { c with ties := rest }
  | _ => .stopped { c with ties := c.ties.tail }

/-- Wait for what comes after some milliseconds, or never. -/
def race (c : Clock) (delay : Option Nat) : Race :=
  match delay, c.stopAt with
  | some d, some t =>
      if c.now + d < t then .reached (c.advance d)
      else if max c.now t < c.now + d then .stopped (c.reach t)
      else (c.advance d).settle
  | some d, none => .reached (c.advance d)
  | none, some t => .stopped (c.reach t)
  | none, none => .stalled

theorem settle_of_wait {c : Clock} {rest : List Tie} (h : c.ties = .wait :: rest) :
    c.settle = .reached { c with ties := rest } := by
  rw [settle, h]

theorem settle_ne_stalled (c : Clock) : c.settle ≠ .stalled := by
  unfold settle
  split
  · exact nofun
  · exact nofun

/-- What comes after some milliseconds comes, or the moment to stop does. -/
theorem race_ne_stalled (c : Clock) (ms : Nat) : c.race (some ms) ≠ .stalled := by
  unfold race
  cases c.stopAt with
  | none => exact nofun
  | some t =>
      dsimp only
      split
      · exact nofun
      · split
        · exact nofun
        · exact settle_ne_stalled _

/-- Where no moment to stop is known, what is waited for comes. -/
theorem race_of_stopAt_eq_none {c : Clock} (h : c.stopAt = none) (ms : Nat) :
    c.race (some ms) = .reached (c.advance ms) := by
  unfold race
  rw [h]

/-- What comes at the moment to stop, or when that has passed and at once, comes
at the same time as the stop. -/
def Tied (c : Clock) (ms : Nat) : Prop :=
  ∃ t, c.stopAt = some t ∧ max c.now t = c.now + ms

/-- A wait that is not broken off ends before the moment to stop, or there was a
tie and the wait won. -/
theorem race_eq_reached_iff {c c' : Clock} {ms : Nat} :
    c.race (some ms) = .reached c' ↔
      ((c.advance ms).stopped = false ∧ c' = c.advance ms)
        ∨ c.Tied ms ∧ ∃ rest, c.ties = .wait :: rest ∧ c' = { c.advance ms with ties := rest } := by
  cases hstop : c.stopAt with
  | none => simp [race_of_stopAt_eq_none hstop, Tied, stopped, advance, hstop, eq_comm]
  | some t =>
      have hrunning : (c.advance ms).stopped = false ↔ c.now + ms < t := by
        simp [stopped, advance, hstop]
      have htied : c.Tied ms ↔ max c.now t = c.now + ms := by simp [Tied, hstop]
      rw [hrunning, htied]
      simp only [race, hstop]
      split
      · rename_i hbefore
        constructor
        · intro h
          cases h
          exact .inl ⟨hbefore, rfl⟩
        · rintro (⟨-, rfl⟩ | ⟨htie, -⟩)
          · rfl
          · omega
      · rename_i hnot
        split
        · rename_i hafter
          constructor
          · exact nofun
          · rintro (⟨hbefore, -⟩ | ⟨htie, -⟩)
            · exact absurd hbefore hnot
            · omega
        · have htie : max c.now t = c.now + ms := by omega
          constructor
          · intro h
            unfold settle at h
            split at h
            · rename_i rest hrest
              cases h
              exact .inr ⟨htie, rest, hrest, rfl⟩
            · cases h
          · rintro (⟨hbefore, -⟩ | ⟨-, rest, hrest, rfl⟩)
            · exact absurd hbefore hnot
            · exact settle_of_wait hrest

/-- Where there is a tie, the moment to stop has come by the time the wait is over. -/
theorem Tied.stopped_advance {c : Clock} {ms : Nat} (h : c.Tied ms) :
    (c.advance ms).stopped = true := by
  obtain ⟨t, ht, htie⟩ := h
  simp only [stopped, advance, ht, decide_eq_true_eq]
  exact htie ▸ Nat.le_max_right c.now t

/-- Where there is a tie, nothing was waited for, or the moment to stop is the
one at which the wait is over. -/
theorem Tied.eq_zero_or {c : Clock} {ms : Nat} (h : c.Tied ms) :
    ms = 0 ∨ (c.advance ms).stopAt = some (c.advance ms).now := by
  obtain ⟨t, ht, htie⟩ := h
  rw [advance, ht, Option.some.injEq]
  dsimp only
  omega

/-- A wait that is broken off has lost a tie or there was none. -/
theorem ties_ne_of_race_eq_stopped {c c' : Clock} {delay : Option Nat}
    (h : c.race delay = .stopped c') : c.ties ≠ .wait :: c'.ties := by
  unfold race at h
  split at h
  · split at h
    · cases h
    · split at h
      · cases h
        exact List.ne_cons_self
      · unfold settle at h
        split at h
        · cases h
        · rename_i hlost
          cases h
          exact hlost _
  · cases h
  · cases h
    exact List.ne_cons_self
  · cases h

/-- Who waits until the moment to stop is to stop. -/
theorem stopped_of_race_eq_stopped {c c' : Clock} {delay : Option Nat}
    (h : c.race delay = .stopped c') : c'.stopped = true := by
  have hreach : ∀ t, c.stopAt = some t → (c.reach t).stopped = true := by
    intro t ht
    simp only [reach, stopped, ht, decide_eq_true_eq]
    exact Nat.le_max_right c.now t
  unfold race at h
  split at h
  · rename_i d t hstop
    split at h
    · cases h
    · split at h
      · cases h
        exact hreach t hstop
      · rename_i hnot _
        unfold settle at h
        split at h
        · cases h
        · cases h
          simp only [stopped, advance, hstop, decide_eq_true_eq]
          exact Nat.not_lt.mp hnot
  · cases h
  · cases h
    exact hreach _ ‹_›
  · cases h

end Clock

/-! ## Tickers -/

/-- Nanoseconds of a millisecond. -/
def nanosPerMilli : Nat := 1000000

/-- How late a tick may fire without any tick being skipped, in nanoseconds. -/
def tickTolerance : Nat := 5 * nanosPerMilli

/-- The rhythm of a repeated action. -/
structure Ticker where
  /-- Nanoseconds between two ticks. -/
  period : Nat
  /-- When the next tick is due, in nanoseconds since the start. -/
  due : Nat
deriving DecidableEq, Repr

namespace Ticker

/-- Milliseconds until the next tick fires. -/
def delay (t : Ticker) (now : Nat) : Nat := (t.due + nanosPerMilli - 1) / nanosPerMilli - now

/-- The ticker after a tick that fired now. -/
def next (t : Ticker) (now : Nat) : Ticker :=
  let fired := now * nanosPerMilli
  if t.due + tickTolerance < fired then
    { t with due := fired + t.period - (fired - t.due) % t.period }
  else { t with due := t.due + t.period }

end Ticker

example : (Ticker.mk 200000000 200000000).next 530 = ⟨200000000, 600000000⟩ := by decide

/-! ## Spans of time -/

/-- A decimal number without the zeros at its end. -/
def decimalText (whole part places : Nat) : String :=
  let digits := (Nat.toDigits 10 (Nat.pow 10 places + part)).tail
  match (digits.reverse.dropWhile (· == '0')).reverse with
  | [] => toString whole
  | kept => toString whole ++ "." ++ String.ofList kept

/-- A number of nanoseconds, counted in the largest unit of which there is one. -/
def spanText (nanos : Nat) : String :=
  if 1000000000 ≤ nanos then decimalText (nanos / 1000000000) (nanos % 1000000000) 9 ++ "s"
  else if 1000000 ≤ nanos then decimalText (nanos / 1000000) (nanos % 1000000) 6 ++ "ms"
  else if 1000 ≤ nanos then decimalText (nanos / 1000) (nanos % 1000) 3 ++ "µs"
  else toString nanos ++ "ns"

example : [3000000000, 1050000000, 150000000, 1500, 0].map spanText
    = ["3s", "1.05s", "150ms", "1.5µs", "0ns"] := by
  decide +kernel

end Scanout
