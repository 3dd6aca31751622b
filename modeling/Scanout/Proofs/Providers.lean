import Mathlib.Algebra.Ring.Nat
import Scanout.Proofs.MovingBlocks
import Scanout.Source.Basic

/-!
# Which provider answers

A chain asks one provider after the other until one does not refuse
(`Source.refuses`).  So its providers fall in three parts: those that were asked
and refused, the one whose answer is the answer of the chain, and those that
were never asked and stand as they stood (`Source.acquire_chain_append`).  When
every provider refuses, the error of the last one is reported, in the name of
the chain if it says that there is no picture
(`Source.acquire_chain_of_refused`).

A chain is asked again and again, each time as it stands after the time before.
A test pattern at its end moves exactly at those times at which everything
before it refused (`Source.after_standby` is one such time,
`Source.askAll_standby` is any number of them).  A pattern that no buffer can
hold does not move: to draw it is a fault, not an answer.
-/

namespace Scanout

namespace Source

variable {t : FileTree} {s : Source} {before rest : List Source}

/-! ## Sources after they were asked -/

/-- How a source stands after it was asked. -/
def after (t : FileTree) (s : Source) : Source := (s.acquire t).source

/-- The error over which a chain goes on to its next provider, if the source
answers with one. -/
def refusal? (t : FileTree) (s : Source) : Option Error :=
  match (s.acquire t).result with
  | some (.error (.error e)) => if e.skippable then some e else none
  | _ => none

/-- The source answers with an error that a chain steps over. -/
def refuses (t : FileTree) (s : Source) : Bool := (s.refusal? t).isSome

/-- The last refusal, where every one of these sources refuses after this one. -/
def lastRefusal (t : FileTree) (last : Option Error) (ss : List Source) : Option Error :=
  ss.foldl (fun _ s => s.refusal? t) last

/-- What the log says about a provider that refused. -/
def refusalNotes (t : FileTree) (s : Source) : List Note :=
  (s.acquire t).notes ++ ((s.refusal? t).map (failureNote s.name)).toList

theorem refusal?_eq_some_iff {e : Error} :
    s.refusal? t = some e ↔ (s.acquire t).result = some (report e) ∧ e.skippable = true := by
  unfold refusal? report
  split
  · rename_i e' hresult
    rw [hresult]
    by_cases he : e'.skippable = true
    · rw [if_pos he]
      constructor
      · intro h
        cases h
        exact ⟨rfl, he⟩
      · rintro ⟨h, -⟩
        cases h
        rfl
    · rw [if_neg he]
      constructor
      · intro h
        cases h
      · rintro ⟨h, hskip⟩
        cases h
        exact absurd hskip he
  · rename_i hother
    exact ⟨fun h => (nomatch h), fun h => absurd h.1 (hother e)⟩

/-! ## One provider of a chain -/

section Poll

variable {chain : String} {last : Option Error}

/-- A provider that refuses is passed over. -/
theorem poll_cons_of_refuses (h : s.refuses t = true) :
    poll t chain last (s :: rest) =
      { delay := (s.acquire t).delay + (poll t chain (s.refusal? t) rest).delay
        result := (poll t chain (s.refusal? t) rest).result
        providers := s.after t :: (poll t chain (s.refusal? t) rest).providers
        notes := s.refusalNotes t ++ (poll t chain (s.refusal? t) rest).notes } := by
  obtain ⟨e, he⟩ := Option.isSome_iff_exists.mp h
  obtain ⟨hresult, hskip⟩ := refusal?_eq_some_iff.mp he
  rw [poll, hresult, refusalNotes, he]
  simp [report, hskip, after]

/-- A provider that does not refuse ends the search. -/
theorem poll_cons_of_answers (h : s.refuses t = false) :
    poll t chain last (s :: rest) =
      { delay := (s.acquire t).delay, result := (s.acquire t).result, providers := s.after t :: rest
        notes := (s.acquire t).notes } := by
  simp only [poll]
  split
  · rename_i e hresult
    have hskip : ¬ e.skippable = true := by
      intro hskip
      have hsome : s.refusal? t = some e := refusal?_eq_some_iff.mpr ⟨hresult, hskip⟩
      rw [refuses, hsome] at h
      cases h
    rw [if_neg hskip, hresult]
    rfl
  · rfl

/-! ## All providers of a chain -/

mutual

/-- Asking changes the state of a source and never its name. -/
theorem name_after (t : FileTree) : ∀ s : Source, (s.after t).name = s.name
  | pattern p => by
      unfold after acquire
      cases TestPattern.render p.size p.tick with
      | ok f => rfl
      | error e => rfl
  | image _ _ => rfl
  | remote _ _ _ => rfl
  | framebuffer _ => rfl
  | script _ [] => rfl
  | script _ (_ :: _) => rfl
  | chain providers => by
      rw [after, acquire, name, name, names_poll]

theorem names_poll (t : FileTree) (chain : String) (last : Option Error) :
    ∀ ss : List Source, names (poll t chain last ss).providers = names ss
  | [] => rfl
  | s :: ss => by
      cases h : s.refuses t with
      | true => rw [poll_cons_of_refuses h, names, names, name_after t s, names_poll t chain _ ss]
      | false => rw [poll_cons_of_answers h, names, names, name_after t s]

end

/-- Providers that refuse are asked once each, and then the others. -/
theorem poll_append (h : ∀ p ∈ before, p.refuses t = true) :
    let others := poll t chain (lastRefusal t last before) rest
    poll t chain last (before ++ rest) =
      { delay := (before.map fun p => (p.acquire t).delay).sum + others.delay
        result := others.result
        providers := before.map (after t) ++ others.providers
        notes := before.flatMap (refusalNotes t) ++ others.notes } := by
  induction before generalizing last with
  | nil => simp [lastRefusal]
  | cons s before ih =>
      obtain ⟨hs, hbefore⟩ := List.forall_mem_cons.mp h
      rw [List.cons_append, poll_cons_of_refuses hs, ih hbefore]
      simp [lastRefusal, Nat.add_assoc]

end Poll

/-- The first provider that does not refuse gives the answer, and no later one
is asked. -/
theorem acquire_chain_append (later : List Source) (hbefore : ∀ p ∈ before, p.refuses t = true)
    (hs : s.refuses t = false) :
    (chain (before ++ s :: later)).acquire t =
      { delay := (before.map fun p => (p.acquire t).delay).sum + (s.acquire t).delay
        result := (s.acquire t).result
        source := chain (before.map (after t) ++ s.after t :: later)
        notes := before.flatMap (refusalNotes t) ++ (s.acquire t).notes } := by
  rw [acquire, poll_append hbefore, poll_cons_of_answers hs]

/-- A chain whose providers all refuse reports the error of the last. -/
theorem acquire_chain_of_refused {providers : List Source}
    (h : ∀ p ∈ providers, p.refuses t = true) :
    (chain providers).acquire t =
      { delay := (providers.map fun p => (p.acquire t).delay).sum
        result := some (report (exhausted (chain providers).name (lastRefusal t none providers)))
        source := chain (providers.map (after t))
        notes := providers.flatMap (refusalNotes t) } := by
  rw [acquire, ← name, ← List.append_nil providers, poll_append h]
  simp [poll]

/-- Either every provider refuses or there is a first one that does not. -/
theorem refused_or_split (t : FileTree) (providers : List Source) :
    (∀ p ∈ providers, p.refuses t = true) ∨ ∃ before s later, providers = before ++ s :: later
      ∧ (∀ p ∈ before, p.refuses t = true) ∧ s.refuses t = false := by
  cases hfind : providers.find? fun p => !p.refuses t with
  | none =>
      left
      simpa using hfind
  | some s =>
      right
      obtain ⟨hs, before, later, hsplit, hbefore⟩ := List.find?_eq_some_iff_append.mp hfind
      exact ⟨before, s, later, hsplit, by simpa using hbefore, by simpa using hs⟩

/-! ## Asking again and again -/

/-- How a source stands after it was asked once with each of these directory trees. -/
def askAll (s : Source) (ts : List FileTree) : Source := ts.foldl (fun s t => s.after t) s

/-- The times at which the source is asked: the directory tree at that time, and
how the source stands. -/
def moments : Source → List FileTree → List (FileTree × Source)
  | _, [] => []
  | s, t :: ts => (t, s) :: moments (s.after t) ts

/-- Every provider of a chain refuses, the last one not counted. -/
def reachesLast (t : FileTree) : Source → Bool
  | chain providers => providers.dropLast.all (·.refuses t)
  | _ => false

/-- How many times all providers but the last refuse. -/
def timesReached (s : Source) (ts : List FileTree) : Nat :=
  (s.moments ts).countP fun (t, s) => s.reachesLast t

/-- Providers with a test pattern behind them. -/
def standby (before : List Source) (size : Size) (tick : Nat) : Source :=
  chain (before ++ [pattern ⟨size, tick⟩])

theorem reachesLast_standby_iff {size : Size} {tick : Nat} :
    (standby before size tick).reachesLast t = true ↔ ∀ p ∈ before, p.refuses t = true := by
  rw [standby, reachesLast, List.dropLast_concat, List.all_eq_true]

theorem timesReached_cons (s : Source) (t : FileTree) (ts : List FileTree) :
    s.timesReached (t :: ts)
      = (if s.reachesLast t then 1 else 0) + (s.after t).timesReached ts := by
  rw [timesReached, moments, List.countP_cons, Nat.add_comm, timesReached]

section Standby

variable {size : Size} {tick : Nat}

/-- A pattern does not refuse, and it moves by one tick unless drawing it is a fault. -/
theorem acquire_pattern (htick : tick < 2 ^ 62) (hpos : size.positive = true) :
    (pattern ⟨size, tick⟩).refuses t = false
      ∧ ((pattern ⟨size, tick⟩).after t = pattern ⟨size, tick + 1⟩
        ∨ Frame.bufferLimit ≤ size.byteLength
          ∧ ((pattern ⟨size, tick⟩).acquire t).result = some fault) := by
  cases Nat.lt_or_ge size.byteLength Frame.bufferLimit with
  | inl hlength =>
      have hsigned : TestPattern.signed tick < TestPattern.tickLimit := by
        rw [TestPattern.signed, TestPattern.tickLimit, if_pos (by omega)]
        omega
      obtain ⟨f, hf, -⟩ := TestPattern.render_eq_ok hpos hlength hsigned
      have hnext : (tick + 1) % wordLimit = tick + 1 := Nat.mod_eq_of_lt (by rw [wordLimit]; omega)
      simp [refuses, refusal?, after, acquire, hf, TestPattern.next, hnext]
  | inr hlength =>
      have hfault : TestPattern.render size tick = fault :=
        TestPattern.render_eq_fault_of_oversized hpos hlength
      simp [refuses, refusal?, acquire, hfault, fault, hlength]

/-- One time at which a chain is asked that ends in a test pattern. -/
theorem after_standby (htick : tick < 2 ^ 62) (hpos : size.positive = true)
    (hanswer : size.byteLength < Frame.bufferLimit
      ∨ ((standby before size tick).acquire t).result ≠ some fault) :
    ∃ before', before'.length = before.length
      ∧ (standby before size tick).after t
        = standby before' size
            (tick + if (standby before size tick).reachesLast t then 1 else 0) := by
  obtain hall | ⟨asked, s, unasked, rfl, hasked, hs⟩ := refused_or_split t before
  · obtain ⟨hrefuses, hmoves⟩ := acquire_pattern (t := t) htick hpos
    have hacquire := acquire_chain_append [] hall hrefuses
    have hafter : (pattern ⟨size, tick⟩).after t = pattern ⟨size, tick + 1⟩ := by
      obtain hafter | ⟨hlarge, hfault⟩ := hmoves
      · exact hafter
      · rw [standby, hacquire] at hanswer
        exact (hanswer.elim (Nat.not_lt.mpr hlarge) fun hne => hne hfault).elim
    refine ⟨before.map (after t), List.length_map .., ?_⟩
    rw [if_pos (reachesLast_standby_iff.mpr hall), standby, standby, ← hafter, after, hacquire]
  · have hstops : ¬ (standby (asked ++ s :: unasked) size tick).reachesLast t = true := by
      rw [reachesLast_standby_iff]
      intro hall
      rw [hall s (List.mem_append_right _ List.mem_cons_self)] at hs
      cases hs
    refine ⟨asked.map (after t) ++ s.after t :: unasked, by simp, ?_⟩
    rw [if_neg hstops, standby, standby, List.append_assoc, List.cons_append, after,
      acquire_chain_append _ hasked hs, List.append_assoc, List.cons_append, Nat.add_zero]

/-- Any number of times at which such a chain is asked, from any tick on. -/
theorem askAll_standby {ts : List FileTree} (htick : tick + ts.length < 2 ^ 62)
    (hpos : size.positive = true)
    (hanswer : size.byteLength < Frame.bufferLimit
      ∨ ∀ m ∈ (standby before size tick).moments ts, (m.2.acquire m.1).result ≠ some fault) :
    ∃ before', before'.length = before.length ∧ (standby before size tick).askAll ts
      = standby before' size (tick + (standby before size tick).timesReached ts) := by
  -- the chain changes from one time to the next, so its providers and its tick
  -- both vary
  induction ts generalizing before tick with
  | nil => exact ⟨before, rfl, rfl⟩
  | cons t ts ih =>
      rw [List.length_cons] at htick
      rw [moments, List.forall_mem_cons, or_and_left] at hanswer
      obtain ⟨before', hlength, hafter⟩ := after_standby (by omega) hpos hanswer.1
      rw [timesReached_cons, ← Nat.add_assoc]
      generalize hstep :
        (if (standby before size tick).reachesLast t then 1 else 0) = step at hafter ⊢
      have hsmall : step ≤ 1 := by
        rw [← hstep]
        split <;> omega
      rw [hafter] at hanswer ⊢
      obtain ⟨before'', hlength', hasked⟩ := ih (by omega) hanswer.2
      refine ⟨before'', hlength'.trans hlength, ?_⟩
      rw [← hasked, ← hafter]
      rfl

end Standby

/-- A chain with any providers answers as the first of them that does not
refuse.  Those before it were asked once each, and those after it stand as they
stood.  If all refuse, each was asked once, and the chain reports what the last
of them reported: that there is no picture, in its own name, or that a device
refused a frame.  A chain without providers has no picture.  Hence a test
pattern at the end of a chain, however often it is asked, shows by its tick how
many times every provider before it refused.  (A pattern too large for any
buffer never yields a frame, and to ask it is a fault.) -/
theorem chain_falls_back :
    (∀ (t : FileTree) (providers : List Source),
      (∃ before s later, providers = before ++ s :: later ∧ (∀ p ∈ before, p.refuses t = true)
        ∧ s.refuses t = false
        ∧ (chain providers).acquire t =
          { delay := (before.map fun p => (p.acquire t).delay).sum + (s.acquire t).delay
            result := (s.acquire t).result
            source := chain (before.map (after t) ++ s.after t :: later)
            notes := before.flatMap (refusalNotes t) ++ (s.acquire t).notes })
      ∨ (∀ p ∈ providers, p.refuses t = true) ∧ ∃ e,
        (chain providers).acquire t =
          { delay := (providers.map fun p => (p.acquire t).delay).sum
            result := some (report e)
            source := chain (providers.map (after t))
            notes := providers.flatMap (refusalNotes t) }
        ∧ (providers = [] ∧ e = .sourceUnavailable (chain providers).name "no providers configured"
          ∨ ∃ init last, providers = init ++ [last] ∧
            ((∃ origin reason,
                (last.acquire t).result = some (report (.sourceUnavailable origin reason))
                ∧ e = .sourceUnavailable (chain providers).name
                  ("all providers failed, last: " ++ reason))
              ∨ ∃ target reason,
                (last.acquire t).result = some (report (.sinkWriteFailure target reason))
                ∧ e = .sinkWriteFailure target reason)))
    ∧ ∀ (size : Size) (before : List Source) (ts : List FileTree), size.positive = true →
      ts.length < 2 ^ 62 →
      (size.byteLength < Frame.bufferLimit
        ∨ ∀ m ∈ (standby before size 0).moments ts, (m.2.acquire m.1).result ≠ some fault) →
      ∃ before', before'.length = before.length
        ∧ (standby before size 0).askAll ts
          = standby before' size ((standby before size 0).timesReached ts) := by
  refine ⟨fun t providers => ?_, fun size before ts hpos hts hanswer => ?_⟩
  · obtain hall | ⟨before, s, later, hsplit, hbefore, hs⟩ := refused_or_split t providers
    · refine .inr ⟨hall, _, acquire_chain_of_refused hall, ?_⟩
      obtain rfl | ⟨init, last, rfl⟩ := providers.eq_nil_or_concat'
      · exact .inl ⟨rfl, rfl⟩
      · refine .inr ⟨init, last, rfl, ?_⟩
        obtain ⟨e, he⟩ := Option.isSome_iff_exists.mp (hall last List.mem_concat_self)
        rw [lastRefusal, List.foldl_append, List.foldl_cons, List.foldl_nil, he]
        obtain ⟨hresult, hskip⟩ := refusal?_eq_some_iff.mp he
        rw [hresult]
        cases e with
        | sourceUnavailable origin reason => exact .inl ⟨origin, reason, rfl, rfl⟩
        | sinkWriteFailure target reason => exact .inr ⟨target, reason, rfl, rfl⟩
        | _ => cases hskip
    · refine .inl ⟨before, s, later, hsplit, hbefore, hs, ?_⟩
      rw [hsplit, acquire_chain_append later hbefore hs]
  · rw [← Nat.zero_add ts.length] at hts
    rw [← Nat.zero_add (timesReached _ _)]
    exact askAll_standby hts hpos hanswer

/-- A camera that is offline, sends a picture that cannot be used, and is
offline again. -/
theorem chain_falls_back_offline :
    let camera : Source :=
      script "camera" [⟨0, some (report (.sourceUnavailable "camera" "offline"))⟩,
        ⟨0, some (report (.invalidDimensions 0 0))⟩]
    ∃ before', before'.length = 1
      ∧ (standby [camera] ⟨1, 1, by decide, by decide⟩ 0).askAll [{}, {}, {}]
        = standby before' ⟨1, 1, by decide, by decide⟩ 2 := by
  intro camera
  have htimes :
      (standby [camera] ⟨1, 1, by decide, by decide⟩ 0).timesReached [{}, {}, {}] = 2 := by
    decide +kernel
  have hasked :=
    chain_falls_back.2 ⟨1, 1, by decide, by decide⟩ [camera] [{}, {}, {}] (by decide) (by decide)
      (.inl (by decide))
  rwa [htimes] at hasked

end Source

end Scanout
