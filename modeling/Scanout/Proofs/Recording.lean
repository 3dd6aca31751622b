import Scanout.Proofs.Runs
import Scanout.Proofs.SweepPlan

/-!
# Only a choice is recorded

A run ends in many ways.  The sink may refuse a frame for good, everything may
have to stop while layouts are tried or while the operator is asked, no frame
may have been taken, the operator may give up or be lost, and the record may be
impossible to write.  Only where a trial was chosen and saved does the run touch
the files itself: in every other case all that happened to them is what the sink
did (`Sweep.exists_reaches_of_unwritten`).

So the record of a store is as it was before the run, byte for byte, if the run
ends without having written it and the sink leaves the record alone
(`Sink.Spares`).
-/

namespace Scanout

/-- The bytes of the record, if there is one. -/
def Store.record? (s : Store) (t : FileTree) : Option ByteArray := (t.read s.path).toOption

/-- Whatever the sink does on its own, it leaves the record of a store alone. -/
def Sink.Spares {σ : Type} [Sink σ] (k : σ) (t : FileTree) (store : Store) : Prop :=
  ∀ k' t', Reaches k t k' t' → store.record? t' = store.record? t

/-- A scripted sink touches no file. -/
theorem ScriptedSink.spares (k : ScriptedSink) (t : FileTree) (store : Store) :
    Sink.Spares k t store :=
  fun _ _ h => h.keeps (fun _ _ _ => rfl) (fun _ _ => rfl)

namespace Sweep

variable {σ : Type} [Sink σ] {c : Sweep} {frame : Frame} {s : Session σ}

/-- A run that does not write the record touches no file itself. -/
theorem exists_reaches_of_unwritten (h : ∀ r, (c.run frame s).1 = .ok r → r.storeWritten = false) :
    ∃ k, Sink.Reaches s.sink s.files k (c.run frame s).2.files := by
  obtain ⟨as, htries⟩ := c.swept_tries frame s
  rw [run_eq] at h ⊢
  rcases hswept : c.swept frame s with ⟨(e | _ | _) | p, t⟩
  all_goals rw [hswept] at h htries
  · exact ⟨_, reaches_closing htries⟩
  · exact ⟨_, htries.reaches⟩
  · exact ⟨_, htries.reaches⟩
  · dsimp only at h ⊢
    split
    · exact ⟨_, reaches_closing htries⟩
    · rename_i hp
      rw [if_neg hp] at h
      rw [files_finalize_of_unwritten h]
      exact ⟨_, reaches_closing htries⟩

/-- What a run reports of its choice. -/
theorem report_of_run {r : Report} (h : (c.run frame s).1 = .ok r) :
    (r.storeWritten = true ↔ c.store.isSome = true ∧ r.winner.isSome = true)
      ∧ (r.cancelled = true → r.winner = none ∧ ∀ t ∈ r.trials, t.verdict = .unrated) := by
  obtain ⟨p, t, hswept, hends⟩ := run_eq_ok (Prod.ext h rfl)
  obtain ⟨as, htries⟩ := c.swept_tries frame s
  rw [hswept] at htries
  have hunchosen := htries.unchosen
  rcases hends with ⟨-, rfl, -⟩ | ⟨hp, hfinalize⟩
  · exact ⟨by simp [hunchosen.winner, hunchosen.unwritten],
      fun _ => ⟨hunchosen.winner, hunchosen.unrated⟩⟩
  · have hfinalizes := finalizes_of_finalize hfinalize
    refine ⟨hfinalizes.written_iff hunchosen.winner hunchosen.unwritten, ?_⟩
    intro hr
    rw [hfinalizes.report_of_cancelled hp hr]
    exact ⟨hunchosen.winner, hunchosen.unrated⟩

/-- A run that yields a report has saved a layout if and only if there are a
store and a winner, and one that is broken off has judged no trial.  A run that
fails, or that has saved nothing, leaves the bytes of every record as they are
that the sink leaves alone. -/
theorem recorded_iff_chosen (c : Sweep) (frame : Frame) (s : Session σ) :
    (∀ r, (c.run frame s).1 = .ok r →
      (r.storeWritten = true ↔ c.store.isSome = true ∧ r.winner.isSome = true)
        ∧ (r.cancelled = true → r.winner = none ∧ ∀ t ∈ r.trials, t.verdict = .unrated))
    ∧ ((∀ r, (c.run frame s).1 = .ok r → r.storeWritten = false) →
        ∀ store, Sink.Spares s.sink s.files store →
          store.record? (c.run frame s).2.files = store.record? s.files) := by
  refine ⟨fun r hr => report_of_run hr, ?_⟩
  intro hunwritten store hspares
  obtain ⟨k, hreaches⟩ := exists_reaches_of_unwritten hunwritten
  exact hspares k _ hreaches

/-- A stop in the first delivery breaks a sweep off, and the record that was
there stays. -/
theorem recorded_iff_chosen_small :
    let s : Session ScriptedSink :=
      { files := ⟨[], [(["best"], .file "{}".toUTF8)]⟩, sink := { stopOn := some 1 } }
    Sink.Spares s.sink s.files ⟨"best"⟩
      ∧ (∃ r, (smallSweep.run smallPicture s).1 = .ok r ∧ r.cancelled = true ∧ r.winner = none)
      ∧ (⟨"best"⟩ : Store).record? (smallSweep.run smallPicture s).2.files = some "{}".toUTF8 := by
  intro s
  have hspares := s.sink.spares s.files ⟨"best"⟩
  have hbefore : (⟨"best"⟩ : Store).record? s.files = some "{}".toUTF8 := by decide +kernel
  have hcancelled :
      (smallSweep.run smallPicture s).1.toOption.map Report.cancelled = some true := by
    decide +kernel
  obtain ⟨hreport, hrecord⟩ := recorded_iff_chosen smallSweep smallPicture s
  cases hrun : (smallSweep.run smallPicture s).1 with
  | error f =>
      rw [hrun] at hcancelled
      cases hcancelled
  | ok r =>
      rw [hrun] at hcancelled
      obtain ⟨hwritten, hbroken⟩ := hreport r hrun
      obtain ⟨hwinner, -⟩ := hbroken (Option.some.inj hcancelled)
      refine ⟨hspares, ⟨r, rfl, Option.some.inj hcancelled, hwinner⟩, ?_⟩
      rw [← hbefore]
      refine hrecord ?_ ⟨"best"⟩ hspares
      intro r' hr'
      cases hrun.symm.trans hr'
      simpa [hwinner] using hwritten

end Sweep

end Scanout
