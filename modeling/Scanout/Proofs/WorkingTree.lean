import Scanout.CommandLine.Run
import Scanout.Proofs.Encoding
import Scanout.Proofs.FileChanges
import Scanout.Proofs.Loading
import Scanout.Proofs.Passes
import Scanout.Proofs.Runs

/-!
# What a run leaves in the working tree

An invocation writes to three files at most: the log, the file that the driver
reads frames from, and the record.  How it may leave them depends on how far it
came.  `CommandLine.Leaves` has one rule for each case: the sink was not used,
the sink cleaned up last, a layout was saved after that, or the run did not come
to its end.  Each command goes by these rules
(`CommandLine.Command.run_leaves`), whatever made it end.

What the rules come to is proved for every sink that treats the files as a file
sink does (`Sink.Wraps`), however often and whenever it asks everything to stop.
It is proved for all services too: pictures may be in any format and come from
anywhere, and they may fail to arrive or to be decoded in any way.  No service
touches a file.
-/

namespace Scanout

/-! ## Sinks that treat the files as a file sink does -/

/-- Whatever else it does, the sink treats the files as the file sink within it. -/
structure Sink.Wraps {σ : Type} [Sink σ] (inner : σ → FileSink) : Prop where
  deliver : ∀ (k : σ) t frame, (Sink.deliver k t frame).files = ((inner k).deliver t frame).files
    ∧ inner (Sink.deliver k t frame).sink = ((inner k).deliver t frame).sink
  cleanUp : ∀ (k : σ) t, (Sink.cleanUp k t).files = ((inner k).cleanUp t).files
    ∧ inner (Sink.cleanUp k t).sink = ((inner k).cleanUp t).sink

theorem FileSink.wraps : Sink.Wraps (id : FileSink → FileSink) :=
  ⟨fun _ _ _ => ⟨rfl, rfl⟩, fun _ _ => ⟨rfl, rfl⟩⟩

/-- The sink of an invocation is one of them, whatever is watched. -/
theorem WatchedSink.wraps : Sink.Wraps WatchedSink.sink := by
  refine ⟨fun k t frame => ?_, fun _ _ => ⟨rfl, rfl⟩⟩
  have heq : Sink.deliver k t frame = WatchedSink.deliver k t frame := rfl
  rw [heq]
  cases hsight : k.sight (k.sink.deliver t frame).files with
  | none => simp [WatchedSink.deliver, hsight]
  | some bytes => simp [WatchedSink.deliver, hsight]

section Wraps

variable {σ : Type} [Sink σ] {inner : σ → FileSink} {k k' : σ} {t t' : FileTree}

/-- A sink on its own changes the file of its frames at most. -/
theorem Sink.Wraps.reaches (hsink : Wraps inner) (h : Reaches k t k' t') :
    t.AgreeBut (t.At (inner k).target) t' ∧ (inner k').target = (inner k).target := by
  induction h with
  | refl => exact ⟨.refl _ t, rfl⟩
  | @deliver k' t' frame _ ih =>
      obtain ⟨hagree, htarget⟩ := ih
      obtain ⟨hfiles, hinner⟩ := hsink.deliver k' t' frame
      obtain ⟨hstep, hkeeps⟩ := (inner k').agree_deliver t' frame
      rw [hfiles, hinner, hkeeps, htarget]
      rw [htarget] at hstep
      exact ⟨hagree.trans (hstep.mono fun p hp => hagree.at_iff.mp hp), rfl⟩
  | @cleanUp k' t' _ ih =>
      obtain ⟨hagree, htarget⟩ := ih
      obtain ⟨hfiles, hinner⟩ := hsink.cleanUp k' t'
      obtain ⟨hstep, hkeeps, -⟩ := (inner k').agree_cleanUp t'
      rw [hfiles, hinner, hkeeps, htarget]
      rw [htarget] at hstep
      exact ⟨hagree.trans (hstep.mono fun p hp => hagree.at_iff.mp hp), rfl⟩

/-- When the sink has cleaned up, its file is not there. -/
theorem Sink.Wraps.cleaned (hsink : Wraps inner) (h : Reaches k t k' t') {p : Place}
    (hp : t.At (inner k).target p) :
    (Sink.cleanUp k' t').files.get? p = none := by
  obtain ⟨hagree, htarget⟩ := hsink.reaches h
  obtain ⟨hfiles, -⟩ := hsink.cleanUp k' t'
  obtain ⟨-, -, hnone⟩ := (inner k').agree_cleanUp t'
  rw [hfiles]
  refine hnone p ?_
  rw [htarget]
  exact hagree.at_iff.mpr hp

end Wraps

/-! ## How a run may leave the files -/

/-- Choosing saves the layout of a trial, or leaves the files as they are. -/
theorem Sweep.Finalizes.files {σ : Type} {c : Sweep} {r r' : Report} {s s' : Session σ}
    (h : Finalizes c r s r' s') :
    s'.files = s.files ∨ ∃ store l, c.store = some store ∧ l ∈ r.trials.map Trial.layout
      ∧ (store.save s.files l).result = .ok () ∧ s'.files = (store.save s.files l).files := by
  cases h with
  | unchosen hfiles => exact .inl hfiles
  | interrupted _ hfiles => exact .inl hfiles
  | concluded _ hfiles hconcludes =>
      rw [← hfiles]
      cases hconcludes with
      | unnamed _ => exact .inl rfl
      | unsaved _ _ hunsaved => exact .inl hunsaved
      | saved hfind hstore hsave hsaved =>
          obtain ⟨u, hu, rfl⟩ := mem_judge (List.mem_of_find?_eq_some hfind)
          exact .inr ⟨_, _, hstore, List.mem_map.mpr ⟨u, hu, rfl⟩, hsave, hsaved⟩

namespace CommandLine

variable {σ : Type} [Sink σ]

/-- How a run leaves the files that it found.  The plan holds the layouts that
it tries, if it tries any. -/
inductive Leaves (c : Settings) (plan : Option (List Layout)) (s s' : Session σ) :
    Except Trouble Unit → Prop where
  /-- The sink was not used. -/
  | untouched {r} : s'.files = s.files → Leaves c plan s s' r
  /-- The sink cleaned up last. -/
  | cleaned {r k t} : Sink.Reaches s.sink s.files k t → s'.files = (Sink.cleanUp k t).files →
      Leaves c plan s s' r
  /-- After the sink had cleaned up, a layout of the plan was saved. -/
  | saved {k t layouts l} : Sink.Reaches s.sink s.files k t → plan = some layouts → l ∈ layouts →
      (c.store.save (Sink.cleanUp k t).files l).result = .ok () →
      s'.files = (c.store.save (Sink.cleanUp k t).files l).files → Leaves c plan s s' (.ok ())
  /-- The run did not come to its end. -/
  | unended {r k} : r = .error .fault ∨ r = .error .stalled →
      Sink.Reaches s.sink s.files k s'.files → Leaves c plan s s' r

variable {c : Settings} {plan : Option (List Layout)} {s s' t : Session σ} {r : Except Trouble Unit}

/-- What comes before a run and does not use the sink does not matter, and
neither does what comes after it. -/
theorem Leaves.between {t' : Session σ} (h : Leaves c plan t t' r) (hfiles : t.files = s.files)
    (hsink : t.sink = s.sink) (hafter : s'.files = t'.files) : Leaves c plan s s' r := by
  cases h with
  | untouched h => exact .untouched (hafter.trans (h.trans hfiles))
  | cleaned hreaches h =>
      rw [hfiles, hsink] at hreaches
      exact .cleaned hreaches (hafter.trans h)
  | saved hreaches hplan hl hsave h =>
      rw [hfiles, hsink] at hreaches
      exact .saved hreaches hplan hl hsave (hafter.trans h)
  | unended hr hreaches =>
      rw [hfiles, hsink, ← hafter] at hreaches
      exact .unended hr hreaches

/-! ## Showing a picture -/

theorem reaches_showOnce (source : Source) (p : Pipeline) (s : Session σ) :
    Sink.Reaches s.sink s.files (showOnce source p s).2.sink (showOnce source p s).2.files := by
  unfold showOnce
  dsimp only
  split
  · exact .refl
  · rename_i result _
    obtain ⟨-, -, hfiles, hsink, -⟩ := Session.notes_eq
      ({ s with clock := s.clock.advance (source.acquire s.currentFiles).delay } : Session σ)
      (source.acquire s.currentFiles).notes
    generalize
      ({ s with clock := s.clock.advance (source.acquire s.currentFiles).delay } : Session σ).notes
        (source.acquire s.currentFiles).notes = t at hfiles hsink ⊢
    have hfiles : t.files = s.files := hfiles
    have hsink : t.sink = s.sink := hsink
    rw [← hfiles, ← hsink]
    cases result with
    | error f => exact .refl
    | ok f =>
        dsimp only
        cases p.render f with
        | error f => exact .refl
        | ok encoded =>
            dsimp only
            rcases hoffer : (t.info (introduction source f p.layout)).offer encoded with ⟨e | ⟨⟩, u⟩
            all_goals have hoffered := Session.reaches_offer hoffer
            · exact hoffered
            · exact hoffered

theorem leaves_show (source : Source) (p : Pipeline) (s : Session σ) :
    Leaves c plan s (settle (source.show p s)).2 (settle (source.show p s)).1 := by
  have hreaches := reaches_showOnce source p s
  unfold Source.show
  rcases hshow : showOnce source p s with ⟨(e | _ | _) | ⟨⟩, t⟩
  all_goals rw [hshow] at hreaches
  · exact .cleaned hreaches t.files_cleanUp
  · exact .unended (.inl rfl) hreaches
  · exact .unended (.inr rfl) hreaches
  · dsimp only
    split
    · exact .cleaned hreaches (Session.files_cleanUp _)
    · exact .cleaned hreaches (Session.files_cleanUp _)
    · exact .unended (.inr rfl) hreaches

/-! ## Trying layouts -/

theorem leaves_of_run_eq_error {sweep : Sweep} {frame : Frame} {f : Failure}
    (h : sweep.run frame s = (.error f, s')) : Leaves c plan s s' (.error (.ofFailure f)) := by
  obtain ⟨as, htries⟩ := sweep.swept_tries frame s
  rw [Sweep.run_eq] at h
  rcases hswept : sweep.swept frame s with ⟨(e | _ | _) | p, t⟩
  all_goals rw [hswept] at h htries
  · cases h
    exact .cleaned htries.reaches t.files_cleanUp
  · cases h
    exact .unended (.inl rfl) htries.reaches
  · cases h
    exact .unended (.inr rfl) htries.reaches
  · dsimp only at h
    split at h
    · cases h
    · have hfiles := Sweep.files_finalize_of_error (congrArg Prod.fst h)
      rw [h] at hfiles
      exact .cleaned htries.reaches (hfiles.trans t.files_cleanUp)

theorem leaves_of_run_eq_ok {sweep : Sweep} {frame : Frame} {report : Sweep.Report}
    (hstore : sweep.store = some c.store) (h : sweep.run frame s = (.ok report, s')) :
    Leaves c (some sweep.plan) s s' (.ok ()) := by
  obtain ⟨as, htries⟩ := sweep.swept_tries frame s
  obtain ⟨p, t, hswept, hends⟩ := Sweep.run_eq_ok h
  rw [hswept] at htries
  have hlayouts : ∀ l ∈ p.report.trials.map Trial.layout, l ∈ sweep.plan := by
    rw [htries.trials, Sweep.layout_numbered]
    exact fun l hl => htries.layouts.subset hl
  rcases hends with ⟨-, -, rfl⟩ | ⟨-, hfinalize⟩
  · exact .cleaned htries.reaches t.files_cleanUp
  · rcases (Sweep.finalizes_of_finalize hfinalize).files with hfiles
      | ⟨store, l, hsome, hl, hsave, hfiles⟩
    · exact .cleaned htries.reaches (hfiles.trans t.files_cleanUp)
    · cases hsome.symm.trans hstore
      have hcleaned : (t.cleanUp.info p.report.summary).files
          = (Sink.cleanUp t.sink t.files).files := t.files_cleanUp
      rw [hcleaned] at hsave hfiles
      exact .saved htries.reaches rfl (hlayouts l hl) hsave hfiles

omit [Sink σ] in
/-- To load a picture only writes to the log. -/
theorem loadPicture_keeps (image : String) (s : Session σ) :
    (loadPicture image s).2.files = s.files ∧ (loadPicture image s).2.sink = s.sink := by
  unfold loadPicture
  split
  · exact ⟨rfl, rfl⟩
  · rename_i source _
    obtain ⟨-, -, hfiles, hsink, -⟩ := Session.notes_eq
      ({ s with clock := s.clock.advance (source.acquire s.currentFiles).delay } : Session σ)
      (source.acquire s.currentFiles).notes
    dsimp only
    split
    all_goals exact ⟨hfiles, hsink⟩

theorem leaves_runSweep (c : Settings) (selection : Selection) (layouts : Outcome (List Layout))
    (image : String)
    (s : Session σ) : Leaves c layouts.toOption s (runSweep c selection layouts image s).2
      (runSweep c selection layouts image s).1 := by
  obtain ⟨hfiles, hsink⟩ := loadPicture_keeps image s
  unfold runSweep
  rcases hload : loadPicture image s with ⟨e | f, t⟩
  all_goals rw [hload] at hfiles hsink
  · exact .untouched hfiles
  · dsimp only
    split
    · exact .untouched hfiles
    · exact .untouched hfiles
    · split
      · rename_i hrun
        exact (leaves_of_run_eq_ok rfl hrun).between hfiles hsink rfl
      · rename_i hrun
        exact (leaves_of_run_eq_error hrun).between hfiles hsink rfl

/-! ## Showing another screen -/

theorem leaves_endFollow {p : Pipeline} {o : Live.Options} {limit : Nat} {st : Live.State σ}
    {ended : Outcome Unit × Live.State σ} (h : Live.steps p o limit st = some ended) :
    Leaves c plan st.session (endFollow (Live.finish ended)).2
      (endFollow (Live.finish ended)).1 := by
  obtain ⟨ms, u, last, hgoes, hends, -⟩ :=
    Live.steps_eq_some_iff.mp (show _ = some (ended.1, ended.2) from h)
  have hreaches := hgoes.reaches.trans hends.reaches
  rcases ended with ⟨(e | _ | _) | ⟨⟩, st'⟩
  · exact .cleaned hreaches (Session.files_cleanUp _)
  · exact .unended (.inl rfl) hreaches
  · exact .unended (.inr rfl) hreaches
  · exact .cleaned hreaches (Session.files_cleanUp _)

/-! ## Commands -/

omit [Sink σ] in
theorem layout_sink (c : Settings) (s : Session σ) : (c.layout s).2.sink = s.sink :=
  (s.notes_eq (c.store.loadNotes s.currentFiles)).2.2.2.1

omit [Sink σ] in
theorem basesOf_sink (c : Settings) (s : Session σ) : (basesOf c s).2.sink = s.sink := by
  unfold basesOf
  split
  all_goals rfl

theorem leaves_runPresent (c : Settings) (image : String) (offset : Offset) (s : Session σ) :
    Leaves c plan s (runPresent c image offset s).2 (runPresent c image offset s).1 := by
  obtain ⟨hfiles, -⟩ := c.layout_keeps s
  have hsink := layout_sink c s
  unfold runPresent
  dsimp only
  split
  · exact .untouched hfiles
  · exact .untouched hfiles
  · exact (leaves_show _ _ _).between hfiles hsink rfl

/-- To begin a live display only writes to the log. -/
theorem start_keeps {source : Source} {o : Live.Options} {st : Live.State σ}
    (h : Live.start source o s = .ok st) :
    st.session.files = s.files ∧ st.session.sink = s.sink := by
  unfold Live.start at h
  split at h
  · cases h
  · cases hperiod : Live.period o.fps with
    | error f =>
        rw [hperiod] at h
        cases h
    | ok period =>
        rw [hperiod] at h
        cases h
        exact ⟨rfl, rfl⟩

theorem leaves_runFollow (limit : Nat) (c : Settings) (options : Live.Options)
    (framebuffer : Framebuffer)
    (s : Session σ) : Leaves c plan s (runFollow limit c options framebuffer s).2
      (runFollow limit c options framebuffer s).1 := by
  obtain ⟨hfiles, -⟩ := c.layout_keeps s
  have hsink := layout_sink c s
  unfold runFollow startFollow
  dsimp only
  cases Pipeline.make (c.layout s).1 ((c.layout s).2.services.resampler c.filter) ⟨0, 0⟩ with
  | error e => exact .untouched hfiles
  | ok p =>
      cases hstart : Live.start (followed framebuffer (c.layout s).1) options (c.layout s).2 with
      | error f => exact .untouched hfiles
      | ok st =>
          obtain ⟨hbegun, hkept⟩ := start_keeps hstart
          dsimp only
          cases hsteps : Live.steps p options limit st with
          | none => exact .untouched (hbegun.trans hfiles)
          | some ended =>
              exact (leaves_endFollow hsteps).between (hbegun.trans hfiles) (hkept.trans hsink) rfl

omit [Sink σ] in
/-- The plan of a command that tries layouts. -/
def Command.plan? (c : Settings) (s : Session σ) : Command → Option (List Layout)
  | .calibrate _ _ => (Sweep.planOf (some Candidates.standard) []).toOption
  | .fineTune _ _ => (Sweep.planOf none (Scanout.fineTune (basesOf c s).1)).toOption
  | _ => none

/-- Every command leaves the files in one of these ways. -/
theorem Command.run_leaves (command : Command) (limit : Nat) (c : Settings) (s : Session σ) :
    Leaves c (command.plan? c s) s (command.run limit c s).2 (command.run limit c s).1 := by
  cases command with
  | present image offset => exact leaves_runPresent c image offset s
  | calibrate image selection =>
      exact leaves_runSweep c selection (Sweep.planOf (some Candidates.standard) []) image s
  | fineTune image selection =>
      obtain ⟨hfiles, -⟩ := basesOf_keeps c s
      have hleaves := leaves_runSweep c selection
        (Sweep.planOf none (Scanout.fineTune (basesOf c s).1)) image
        (basesOf c s).2
      exact hleaves.between hfiles (basesOf_sink c s) rfl
  | follow options framebuffer => exact leaves_runFollow limit c options framebuffer s

/-! ## What the ways have in common -/

section Consequences

variable {inner : σ → FileSink} {p : Place}

/-- A clean-up leaves the file of the sink absent, and all else as it was. -/
theorem agree_cleaned {k : σ} {u : FileTree} (hsink : Sink.Wraps inner)
    (htarget : (inner s.sink).target = c.output) (h : Sink.Reaches s.sink s.files k u) :
    s.files.AgreeBut (s.files.At c.output) (Sink.cleanUp k u).files
      ∧ ∀ p, s.files.At c.output p → (Sink.cleanUp k u).files.get? p = none := by
  obtain ⟨hagree, -⟩ := hsink.reaches (.cleanUp h)
  rw [htarget] at hagree
  refine ⟨hagree, fun p hp => hsink.cleaned h ?_⟩
  rw [htarget]
  exact hp

/-- A layout that is saved after a clean-up is in the file of the record, and
all else is as after the clean-up. -/
theorem agree_saved {k : σ} {u : FileTree} {l : Layout} (hsink : Sink.Wraps inner)
    (htarget : (inner s.sink).target = c.output) (h : Sink.Reaches s.sink s.files k u)
    (hsave : (c.store.save (Sink.cleanUp k u).files l).result = .ok ()) :
    (Sink.cleanUp k u).files.AgreeBut (s.files.At c.config)
        (c.store.save (Sink.cleanUp k u).files l).files
      ∧ l.check = .ok () ∧ ∀ p, s.files.At c.config p →
        (c.store.save (Sink.cleanUp k u).files l).files.get? p
          = some (.file (Record.write l).toUTF8) := by
  obtain ⟨hagree, -⟩ := agree_cleaned hsink htarget h
  obtain ⟨hcheck, q, hq, hput⟩ := Store.save_eq_put hsave
  obtain ⟨hstep, hfile⟩ := FileTree.agreeBut_put hq.not_directory (Record.write l).toUTF8 false
  have hat : s.files.At c.config q := hagree.at_iff.mp hq
  rw [hput]
  refine ⟨hstep.mono fun p hp => hp ▸ hat, hcheck, fun p hp => ?_⟩
  cases hat.symm.trans hp
  exact hfile

variable (hsink : Sink.Wraps inner) (htarget : (inner s.sink).target = c.output)
  (h : Leaves c plan s s' r)
include hsink htarget h

/-- The file of the sink and that of the record are all that a command changes. -/
theorem Leaves.agree :
    s.files.AgreeBut (fun p => s.files.At c.output p ∨ s.files.At c.config p) s'.files := by
  cases h with
  | untouched hfiles =>
      rw [hfiles]
      exact .refl _ _
  | cleaned hreaches hfiles =>
      rw [hfiles]
      exact (agree_cleaned hsink htarget hreaches).1.mono fun p hp => .inl hp
  | saved hreaches _ _ hsave hfiles =>
      rw [hfiles]
      exact ((agree_cleaned hsink htarget hreaches).1.mono fun p hp => .inl hp).trans
        ((agree_saved hsink htarget hreaches hsave).1.mono fun p hp => .inr hp)
  | unended _ hreaches =>
      obtain ⟨hagree, -⟩ := hsink.reaches hreaches
      rw [htarget] at hagree
      exact hagree.mono fun p hp => .inl hp

/-- The file of the sink is as it was or absent, unless the command did not come
to its end. -/
theorem Leaves.output (hfault : r ≠ .error .fault) (hstalled : r ≠ .error .stalled)
    (hp : s.files.At c.output p) (hconfig : ¬ s.files.At c.config p) :
    s'.files.get? p = s.files.get? p ∨ s'.files.get? p = none := by
  cases h with
  | untouched hfiles =>
      rw [hfiles]
      exact .inl rfl
  | cleaned hreaches hfiles =>
      rw [hfiles]
      exact .inr ((agree_cleaned hsink htarget hreaches).2 p hp)
  | saved hreaches _ _ hsave hfiles =>
      rw [hfiles, (agree_saved hsink htarget hreaches hsave).1.elsewhere p hconfig]
      exact .inr ((agree_cleaned hsink htarget hreaches).2 p hp)
  | unended hr _ => exact (hr.elim hfault hstalled).elim

/-- The record is as it was, or it is that of a layout of the plan and the
command has succeeded. -/
theorem Leaves.config (hp : s.files.At c.config p) (houtput : ¬ s.files.At c.output p) :
    s'.files.get? p = s.files.get? p ∨ r = .ok () ∧ ∃ layouts l, plan = some layouts ∧ l ∈ layouts
      ∧ l.check = .ok () ∧ s'.files.get? p = some (.file (Record.write l).toUTF8) := by
  cases h with
  | untouched hfiles =>
      rw [hfiles]
      exact .inl rfl
  | cleaned hreaches hfiles =>
      rw [hfiles]
      exact .inl ((agree_cleaned hsink htarget hreaches).1.elsewhere p houtput)
  | saved hreaches hplan hl hsave hfiles =>
      obtain ⟨-, hcheck, hfile⟩ := agree_saved hsink htarget hreaches hsave
      rw [hfiles]
      exact .inr ⟨rfl, _, _, hplan, hl, hcheck, hfile p hp⟩
  | unended _ hreaches =>
      obtain ⟨hagree, -⟩ := hsink.reaches hreaches
      rw [htarget] at hagree
      exact .inl (hagree.elsewhere p houtput)

end Consequences

/-! ## Invocations -/

omit [Sink σ] in
/-- Before its command an invocation changes the log file at most. -/
theorem Settings.prepare_keeps (c : Settings) (s : Session σ) :
    (c.prepare s).2.sink = s.sink
      ∧ s.files.AgreeBut (fun p => ∃ log ∈ c.logFile, s.files.At log p) (c.prepare s).2.files := by
  have hopen : ∀ u, openLog c s.files = .ok u →
      s.files.AgreeBut (fun p => ∃ log ∈ c.logFile, s.files.At log p) u := by
    intro u h
    unfold openLog at h
    cases hlog : c.logFile with
    | none =>
        rw [hlog] at h
        cases h
        exact .refl _ _
    | some path =>
        rw [hlog] at h
        dsimp only at h
        split at h
        · rename_i hhold
          cases h
          exact (FileTree.agree_hold hhold).mono fun p hp => ⟨path, rfl, hp⟩
        · cases h
  unfold prepare
  cases hlog : openLog c s.files with
  | error e => exact ⟨rfl, .refl _ _⟩
  | ok u =>
      dsimp only
      split
      · exact ⟨rfl, hopen u hlog⟩
      · split
        · exact ⟨rfl, hopen u hlog⟩
        · exact ⟨rfl, hopen u hlog⟩

/-- An invocation leaves the files as its command does, or as they are before that. -/
theorem Invocation.run_leaves (i : Invocation) (limit : Nat) (s : Session σ) :
    ∃ plan, Leaves i.settings plan (i.settings.prepare s).2 (i.run limit s).2 (i.run limit s).1
      ∧ ((i.run limit s).1 = .ok () → (i.settings.prepare s).1 = .ok ()
          ∧ plan = i.command.plan? i.settings (i.settings.prepare s).2) := by
  unfold run
  rcases hprepare : i.settings.prepare s with ⟨e | ⟨⟩, t⟩
  · exact ⟨none, .untouched rfl, fun h => nomatch h⟩
  · exact ⟨_, i.command.run_leaves limit i.settings t, fun _ => ⟨rfl, rfl⟩⟩

/-- The files that an invocation may write to are at different places. -/
structure Settings.Apart (c : Settings) (t : FileTree) : Prop where
  output_config : ∀ p, t.At c.output p → ¬ t.At c.config p
  output_log : ∀ log ∈ c.logFile, ∀ p, t.At c.output p → ¬ t.At log p
  config_log : ∀ log ∈ c.logFile, ∀ p, t.At c.config p → ¬ t.At log p

/-- Whatever its services are, an invocation changes no file but its log, the
file of the frames and the record.  It leaves no frame behind: when it has come
to its end, the file of the frames is as it was or absent.  The record is as it
was, unless the invocation tried layouts and succeeded: then one of the layouts
of its plan is loaded from there. -/
theorem Invocation.run_tidy {inner : σ → FileSink} (hsink : Sink.Wraps inner) (i : Invocation)
    (limit : Nat) (s : Session σ) (htarget : (inner s.sink).target = i.settings.output)
    (hheld : s.files.holds = false) (hapart : i.settings.Apart s.files) {r : Except Trouble Unit}
    {s' : Session σ} (hrun : i.run limit s = (r, s')) :
    (∀ p, ¬ s.files.At i.settings.output p → ¬ s.files.At i.settings.config p →
        (∀ log ∈ i.settings.logFile, ¬ s.files.At log p) → s'.currentFiles.get? p = s.files.get? p)
      ∧ (r ≠ .error .fault → r ≠ .error .stalled → ∀ p, s.files.At i.settings.output p →
          s'.currentFiles.get? p = s.files.get? p ∨ s'.currentFiles.get? p = none)
      ∧ ∀ p, s.files.At i.settings.config p → s'.currentFiles.get? p = s.files.get? p
          ∨ exitCode r = 0 ∧ ∃ t plan l, i.settings.prepare s = (.ok (), t)
            ∧ i.command.plan? i.settings t = some plan ∧ l ∈ plan ∧ l.check = .ok ()
            ∧ i.settings.store.tryLoad s'.currentFiles = .ok (some l) := by
  obtain ⟨hsame, hprepared⟩ := i.settings.prepare_keeps s
  obtain ⟨plan, hleaves, hplan⟩ := i.run_leaves limit s
  rw [hrun] at hleaves hplan
  generalize hprepare : i.settings.prepare s = prepared at hsame hprepared hleaves hplan
  obtain ⟨r₀, t⟩ := prepared
  rw [← hsame] at htarget
  have hagree := hleaves.agree hsink htarget
  have hat : ∀ {path p}, t.files.At path p ↔ s.files.At path p := hprepared.at_iff
  -- The log is the only file that is held open, so what the run left as it was
  -- is not written to afterwards.
  have hkept : ∀ p, s'.files.get? p = s.files.get? p → s'.currentFiles.get? p = s.files.get? p := by
    intro p hp
    rw [s'.get?_currentFiles fun e he => FileTree.not_held_of_get? hheld (hp ▸ he), hp]
  refine ⟨fun p houtput hconfig hlog => ?_, fun hfault hstalled p hp => ?_, fun p hp => ?_⟩
  · have hbefore : t.files.get? p = s.files.get? p :=
      hprepared.elsewhere p fun ⟨log, hmem, hplace⟩ => hlog log hmem hplace
    have hafter : s'.files.get? p = t.files.get? p :=
      hagree.elsewhere p fun hplace => hplace.elim (mt hat.mp houtput) (mt hat.mp hconfig)
    exact hkept p (hafter.trans hbefore)
  · have hbefore : t.files.get? p = s.files.get? p :=
      hprepared.elsewhere p fun ⟨log, hmem, hplace⟩ => hapart.output_log log hmem p hp hplace
    have hconfig : ¬ t.files.At i.settings.config p := mt hat.mp (hapart.output_config p hp)
    rcases hleaves.output hsink htarget hfault hstalled (hat.mpr hp) hconfig with hafter | hnone
    · exact .inl (hkept p (hafter.trans hbefore))
    · rw [s'.get?_currentFiles fun e he => by rw [hnone] at he; cases he]
      exact .inr hnone
  · have hbefore : t.files.get? p = s.files.get? p :=
      hprepared.elsewhere p fun ⟨log, hmem, hplace⟩ => hapart.config_log log hmem p hp hplace
    have houtput : ¬ t.files.At i.settings.output p :=
      mt hat.mp fun houtput => hapart.output_config p houtput hp
    rcases hleaves.config hsink htarget (hat.mpr hp) houtput with
      hafter | ⟨rfl, layouts, l, hlayouts, hl, hcheck, hfile⟩
    · exact .inl (hkept p (hafter.trans hbefore))
    · obtain ⟨hok, hplanned⟩ := hplan rfl
      have hplace : s'.currentFiles.At i.settings.config p :=
        s'.at_currentFiles (hagree.at_iff.mpr (hat.mpr hp))
      have hrecord : s'.currentFiles.get? p = some (.file (Record.write l).toUTF8) := by
        rw [s'.get?_currentFiles fun e he => ?_, hfile]
        rw [hfile] at he
        cases he
        rfl
      refine .inr ⟨rfl, t, layouts, l, ?_, ?_, hl, hcheck,
        Store.tryLoad_of_record hplace hrecord hcheck⟩
      · rw [← hok]
      · rw [← hplanned, hlayouts]

/-- A record, a picture and a frame that was left behind. -/
def smallTree : FileTree where
  entries := [(["best"], .file (Record.write smallLayout).toUTF8),
    (["picture"], .file "P6 1 2 255 abcdef".toUTF8),
    (["frame"], .file "left behind".toUTF8)]

/-- The picture is to be shown, and the log is kept in a file. -/
def smallShow : Invocation where
  settings := { output := "frame", config := "best", logFile := some "log", deviceCheck := false }
  command := .present "picture" ⟨0, 0⟩

theorem smallTree_places :
    smallTree.At "frame" ["frame"] ∧ smallTree.At "best" ["best"] ∧ smallTree.At "log" ["log"] := by
  unfold FileTree.At
  decide +kernel

theorem smallShow_apart : smallShow.settings.Apart smallTree := by
  obtain ⟨houtput, hconfig, hlog⟩ := smallTree_places
  refine ⟨fun p hp hp' => ?_, fun log hmem p hp hp' => ?_, fun log hmem p hp hp' => ?_⟩
  · exact absurd ((houtput.eq hp).trans (hconfig.eq hp').symm) (by decide)
  · cases hmem
    exact absurd ((houtput.eq hp).trans (hlog.eq hp').symm) (by decide)
  · cases hmem
    exact absurd ((hconfig.eq hp).trans (hlog.eq hp').symm) (by decide)

/-- A picture is shown until everything is to stop.  What was left behind before
is gone as well. -/
theorem Invocation.run_tidy_small :
    let s : Session FileSink :=
      { files := smallTree, sink := { target := "frame" }, clock := { stopAt := some 5 } }
    Sink.Wraps (id : FileSink → FileSink) ∧ s.files.holds = false ∧ smallShow.settings.Apart s.files
      ∧ (smallShow.run 1 s).1 = .ok () ∧ (smallShow.run 1 s).2.accepted.length = 1
      ∧ (smallShow.run 1 s).2.currentFiles.get? ["picture"] = s.files.get? ["picture"]
      ∧ (smallShow.run 1 s).2.currentFiles.get? ["frame"] = none := by
  intro s
  have hheld : s.files.holds = false := by decide +kernel
  have hok : (smallShow.run 1 s).1 = .ok () := by decide +kernel
  have hframe : (smallShow.run 1 s).2.currentFiles.get? ["frame"] ≠ s.files.get? ["frame"] := by
    decide +kernel
  obtain ⟨hplace, hconfig, hlog⟩ := smallTree_places
  obtain ⟨helsewhere, houtput, -⟩ :=
    Invocation.run_tidy FileSink.wraps smallShow 1 s rfl hheld smallShow_apart
    (Prod.eta _).symm
  refine ⟨FileSink.wraps, hheld, smallShow_apart, hok, by decide +kernel, ?_, ?_⟩
  · refine helsewhere ["picture"] (fun h => ?_) (fun h => ?_) fun log hmem h => ?_
    · exact absurd (hplace.eq h) (by decide)
    · exact absurd (hconfig.eq h) (by decide)
    · cases hmem
      exact absurd (hlog.eq h) (by decide)
  · have hended : (smallShow.run 1 s).1 ≠ .error .fault
        ∧ (smallShow.run 1 s).1 ≠ .error .stalled := by
      rw [hok]
      exact ⟨nofun, nofun⟩
    exact (houtput hended.1 hended.2 ["frame"] hplace).resolve_left hframe

/-- A picture that takes seven milliseconds to arrive is shown in the same way. -/
example :
    let download : Download := { delay := 7, result := .ok "P6 1 2 255 abcdef".toUTF8 }
    let s : Session FileSink :=
      { files := smallTree, sink := { target := "frame" }, clock := { stopAt := some 5 }
        services := { connect := fun _ => .ok fun _ => download } }
    let ended := { smallShow with command := .present "http://picture" ⟨0, 0⟩ }.run 1 s
    exitCode ended.1 = 0 ∧ ended.2.clock.now = 7 ∧ ended.2.accepted.length = 1
      ∧ ended.2.currentFiles.get? ["frame"] = none := by
  decide +kernel

end CommandLine

end Scanout
