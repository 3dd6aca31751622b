import Scanout.Proofs.Following

/-!
# Calls on a file sink

A sink is asked to take frames and to clean up, in any order.  Each call changes
the file of the sink as it should or changes nothing (`FileSink.Delivers`,
`FileSink.CleansUp`), so neither half a frame nor the file in which a frame was
written first is ever left behind.

What holds after several calls is an invariant of the single call
(`FileSink.State.Leads`).  Whether a frame is taken is known before the first
call, since no call makes or removes a directory.
-/

namespace Scanout

namespace FileSink

/-! ## Single calls -/

/-- What may become of a frame. -/
inductive Delivers (k : FileSink) (t : FileTree) (frame : Encoded) : Delivery FileSink → Prop where
  /-- The file has the bytes of the frame, and nothing else has changed. -/
  | taken {u} : t.With k.target (some frame.bytes) u → u.read k.target = .ok frame.bytes →
      Delivers k t frame
        { result := .ok (), sink := { k with framesWritten := k.framesWritten + 1 }, files := u }
  /-- Nothing has changed. -/
  | refused (reason) :
      Delivers k t frame
        { result := .error (.sinkWriteFailure k.target reason), sink := k, files := t }

/-- What may become of a clean-up. -/
inductive CleansUp (k : FileSink) (t : FileTree) : CleanUp FileSink → Prop where
  /-- There was a file, and it is removed. -/
  | removed {u notes} : t.isFile k.target = true → t.With k.target none u →
      CleansUp k t { sink := k, files := u, notes := notes }
  /-- There was no file, and nothing has changed. -/
  | absent {notes} : t.isFile k.target = false →
      CleansUp k t { sink := k, files := t, notes := notes }

theorem delivers (k : FileSink) (t : FileTree) (frame : Encoded) :
    Delivers k t frame (k.deliver t frame) := by
  cases hresult : (t.replace k.target frame.bytes stagedNameLength).result with
  | error e =>
      rw [deliver_of_replace_error hresult]
      cases e with
      | creating e => exact .refused _
      | replacing e => exact .refused _
  | ok u =>
      obtain ⟨place, hplace, hput⟩ := FileTree.replace_eq_put hresult
      have hread := FileTree.read_replace hresult
      rw [deliver_of_replaced hresult]
      rw [hput] at hread ⊢
      exact .taken (FileTree.with_put hplace frame.bytes) hread

theorem cleansUp (k : FileSink) (t : FileTree) : CleansUp k t (k.cleanUp t) := by
  unfold cleanUp
  cases hremove : t.remove k.target with
  | ok u =>
      obtain ⟨place, old, held, hplace, hfile, rfl⟩ := FileTree.remove_eq_erase hremove
      exact .removed (FileTree.isFile_iff.mpr ⟨place, old, held, hplace, hfile⟩)
        (FileTree.with_erase hplace)
  | error e =>
      have hfile : t.isFile k.target = false := by
        rw [Bool.eq_false_iff]
        intro h
        obtain ⟨place, old, held, hplace, hfile⟩ := FileTree.isFile_iff.mp h
        cases hfile.symm.trans (FileTree.get?_of_remove_error hplace hremove)
      cases e with
      | _ => exact .absent hfile

section CleansUp

variable {k : FileSink} {t : FileTree} {c : CleanUp FileSink}

theorem CleansUp.sink (h : CleansUp k t c) : c.sink = k := by
  cases h with
  | _ => rfl

/-- After a clean-up the sink's path leads to no file. -/
theorem CleansUp.isFile_eq_false (h : CleansUp k t c) : c.files.isFile k.target = false := by
  cases h with
  | removed _ hwith =>
      rw [FileTree.isFile, hwith.lookup]
      rfl
  | absent hfile => exact hfile

/-- Where there is no file a clean-up changes nothing. -/
theorem CleansUp.files_of_absent (h : CleansUp k t c) (hfile : t.isFile k.target = false) :
    c.files = t := by
  cases h with
  | removed hfile' _ => cases hfile'.symm.trans hfile
  | absent _ => rfl

end CleansUp

/-- To clean up again changes nothing. -/
theorem files_cleanUp_cleanUp (k : FileSink) (t : FileTree) :
    ((k.cleanUp t).sink.cleanUp (k.cleanUp t).files).files = (k.cleanUp t).files := by
  have h := k.cleansUp t
  rw [h.sink]
  exact (k.cleansUp _).files_of_absent h.isFile_eq_false

/-- A frame is taken if and only if a file could be written at the sink's path
and there is room for the path of the new file. -/
theorem deliver_eq_ok_iff (k : FileSink) (t : FileTree) (frame : Encoded) :
    (k.deliver t frame).result = .ok ()
      ↔ (∃ place, t.At k.target place)
        ∧ FileTree.checkPath (t.stagedPath k.target stagedNameLength) = .ok () := by
  have hreplace : (t.replace k.target frame.bytes stagedNameLength).result = .ok () ↔ _ :=
    FileTree.replace_eq_ok_iff
  refine Iff.trans ?_ hreplace
  cases hresult : (t.replace k.target frame.bytes stagedNameLength).result with
  | error e =>
      rw [deliver_of_replace_error hresult]
      exact ⟨fun h => (nomatch h), fun h => nomatch h⟩
  | ok u =>
      rw [deliver_of_replaced hresult]
      exact ⟨fun _ => rfl, fun _ => rfl⟩

/-! ## Several calls -/

/-- What is asked of a sink. -/
inductive Call where
  | deliver (frame : Encoded)
  | cleanUp

/-- A sink and the files that it works on. -/
structure State where
  sink : FileSink
  files : FileTree

namespace State

variable {s s' s'' : State} {m n : Nat}

/-- What there is after a call. -/
def call (s : State) : Call → State
  | .deliver frame => ⟨(s.sink.deliver s.files frame).sink, (s.sink.deliver s.files frame).files⟩
  | .cleanUp => ⟨(s.sink.cleanUp s.files).sink, (s.sink.cleanUp s.files).files⟩

/-- The call is for a frame, which is taken. -/
def takes (s : State) : Call → Bool
  | .deliver frame => (s.sink.deliver s.files frame).result.isOk
  | .cleanUp => false

/-- What there is after several calls. -/
def run (s : State) : List Call → State
  | [] => s
  | c :: cs => (s.call c).run cs

/-- The number of frames that are taken in several calls. -/
def taken (s : State) : List Call → Nat
  | [] => 0
  | c :: cs => (if s.takes c then 1 else 0) + (s.call c).taken cs

/-- Between two states so many frames were taken, and nothing but the file of
the sink has changed. -/
structure Leads (s : State) (n : Nat) (s' : State) : Prop where
  target : s'.sink.target = s.sink.target
  framesWritten : s'.sink.framesWritten = s.sink.framesWritten + n
  files : s.files.AgreeBut (s.files.At s.sink.target) s'.files

theorem Leads.trans (h : s.Leads n s') (h' : s'.Leads m s'') : s.Leads (n + m) s'' where
  target := h'.target.trans h.target
  framesWritten := by rw [h'.framesWritten, h.framesWritten, Nat.add_assoc]
  files := by
    have hfiles := h'.files
    rw [h.target] at hfiles
    exact h.files.trans (hfiles.mono fun p hp => h.files.at_iff.mp hp)

theorem leads_call (s : State) (c : Call) : s.Leads (if s.takes c then 1 else 0) (s.call c) := by
  cases c with
  | deliver frame =>
      have hagree := s.sink.agree_deliver s.files frame
      have hdelivers := s.sink.delivers s.files frame
      rw [takes, call]
      generalize s.sink.deliver s.files frame = d at hagree hdelivers ⊢
      obtain ⟨hagree, htarget⟩ := hagree
      refine ⟨htarget, ?_, hagree⟩
      cases hdelivers with
      | taken _ _ => rfl
      | refused _ => rfl
  | cleanUp =>
      have hagree := s.sink.agree_cleanUp s.files
      have hcleansUp := s.sink.cleansUp s.files
      rw [takes, call]
      generalize s.sink.cleanUp s.files = c at hagree hcleansUp ⊢
      obtain ⟨hagree, htarget, -⟩ := hagree
      refine ⟨htarget, ?_, hagree⟩
      rw [hcleansUp.sink]
      rfl

theorem leads_run (s : State) (cs : List Call) : s.Leads (s.taken cs) (s.run cs) := by
  induction cs generalizing s with
  | nil => exact ⟨rfl, rfl, .refl _ _⟩
  | cons c cs ih => exact (s.leads_call c).trans (ih (s.call c))

end State

/-- After any calls the sink has counted the frames that were taken, and nothing
but its file has changed.  Whether the next frame is taken was known from the
start.  If it is, the file has its bytes and nothing else changes, and if it is
not, nothing changes.  To clean up removes the file if it is there, and nothing
else, and to clean up again changes nothing. -/
theorem calls_atomic (k : FileSink) (t : FileTree) (cs : List Call) :
    let s := State.run ⟨k, t⟩ cs
    (s.sink.target = k.target ∧ s.sink.framesWritten = k.framesWritten + State.taken ⟨k, t⟩ cs
        ∧ t.AgreeBut (t.At k.target) s.files)
      ∧ (∀ frame, Delivers s.sink s.files frame (s.sink.deliver s.files frame)
          ∧ ((s.sink.deliver s.files frame).result = .ok () ↔ (∃ place, t.At k.target place)
            ∧ FileTree.checkPath (t.stagedPath k.target stagedNameLength) = .ok ()))
      ∧ CleansUp s.sink s.files (s.sink.cleanUp s.files)
      ∧ ((s.sink.cleanUp s.files).sink.cleanUp (s.sink.cleanUp s.files).files).files
        = (s.sink.cleanUp s.files).files := by
  intro s
  have hleads : State.Leads ⟨k, t⟩ (State.taken ⟨k, t⟩ cs) s := State.leads_run _ cs
  clear_value s
  obtain ⟨htarget, htaken, hfiles⟩ := hleads
  have hroom : s.files.stagedPath s.sink.target stagedNameLength
      = t.stagedPath k.target stagedNameLength := by
    rw [FileTree.stagedPath, FileTree.homePath, hfiles.home, htarget]
    rfl
  refine ⟨⟨htarget, htaken, hfiles⟩, fun frame => ⟨s.sink.delivers s.files frame, ?_⟩,
    s.sink.cleansUp s.files, s.sink.files_cleanUp_cleanUp s.files⟩
  rw [deliver_eq_ok_iff, hroom, htarget]
  exact and_congr_left fun _ => exists_congr fun place => hfiles.at_iff

end FileSink

end Scanout
