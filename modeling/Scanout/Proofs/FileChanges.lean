import Scanout.Proofs.Replacing
import Scanout.Session

/-!
# What file operations leave as it was

Each operation on files that a run makes changes one place at most: the place of
the file that a path names.  A replacement puts a file there
(`FileTree.replace_eq_put`), a removal takes it away
(`FileTree.remove_eq_erase`), and to hold a file open makes it if it is not
there (`FileTree.hold_eq_put`).  None of them makes or removes a directory, so
afterwards every path names the place that it named before
(`FileTree.AgreeBut.at_iff`), and several operations one after the other change
the places of their paths in the first tree.

Lines that are written to a file that is held open change no other file
(`FileTree.get?_append`).

So a frame, a clean-up and a save change one file at most
(`FileSink.agree_deliver`, `FileSink.agree_cleanUp`, `Store.save_eq_put`).
-/

namespace Scanout

namespace FileTree

variable {t u v : FileTree} {path : String} {place p : Place} {bytes : ByteArray}
  {touched also : Place → Prop}

/-- The place at which a file of this path is written. -/
def At (t : FileTree) (path : String) (p : Place) : Prop := t.filePlace path = .ok p

/-- Two trees have the same directories, and the same files but for some places. -/
structure AgreeBut (touched : Place → Prop) (t u : FileTree) : Prop where
  home : u.home = t.home
  directories : ∀ p, u.get? p = some .directory ↔ t.get? p = some .directory
  elsewhere : ∀ p, ¬ touched p → u.get? p = t.get? p

namespace AgreeBut

theorem refl (touched : Place → Prop) (t : FileTree) : AgreeBut touched t t :=
  ⟨rfl, fun _ => Iff.rfl, fun _ _ => rfl⟩

theorem trans (h : AgreeBut touched t u) (h' : AgreeBut touched u v) : AgreeBut touched t v where
  home := h'.home.trans h.home
  directories p := (h'.directories p).trans (h.directories p)
  elsewhere p hp := (h'.elsewhere p hp).trans (h.elsewhere p hp)

theorem mono (h : AgreeBut touched t u) (hsub : ∀ p, touched p → also p) : AgreeBut also t u where
  home := h.home
  directories := h.directories
  elsewhere p hp := h.elsewhere p (mt (hsub p) hp)

/-- A path names the same place in both trees. -/
theorem at_iff (h : AgreeBut touched t u) : u.At path p ↔ t.At path p :=
  ⟨filePlace_of_directories h.home.symm fun q => (h.directories q).symm,
    filePlace_of_directories h.home h.directories⟩

end AgreeBut

/-! ## Single entries -/

theorem not_above_home (h : t.get? place ≠ some .directory) : place.isPrefixOf t.home = false := by
  rw [Bool.eq_false_iff]
  exact fun hprefix => h (get?_above_home hprefix)

theorem At.eq {q : Place} (h : t.At path p) (h' : t.At path q) : p = q :=
  Except.ok.inj (h.symm.trans h')

theorem At.not_directory (h : t.At path place) : t.get? place ≠ some .directory := by
  obtain ⟨-, -, -, -, -, hplace⟩ := filePlace_eq_ok_iff.mp h
  simpa [hasDirectory] using hplace

/-- A tree agrees with another but for one place if both have the same entries
elsewhere and no directory there. -/
theorem agreeBut_of_get? (hhome : u.home = t.home) (ht : t.get? place ≠ some .directory)
    (hu : u.get? place ≠ some .directory)
    (h : ∀ q, q.isPrefixOf t.home = false → q ≠ place → u.get? q = t.get? q) :
    AgreeBut (· = place) t u := by
  have helsewhere : ∀ q, q ≠ place → u.get? q = t.get? q := by
    intro q hq
    cases hprefix : q.isPrefixOf t.home with
    | true => rw [get?_above_home hprefix, get?_above_home (hhome ▸ hprefix)]
    | false => exact h q hprefix hq
  refine ⟨hhome, fun q => ?_, helsewhere⟩
  by_cases hq : q = place
  · rw [hq]
    exact iff_of_false hu ht
  · rw [helsewhere q hq]

theorem agreeBut_put (h : t.get? place ≠ some .directory) (bytes : ByteArray) (held : Bool) :
    AgreeBut (· = place) t (t.put place (.file bytes held))
      ∧ (t.put place (.file bytes held)).get? place = some (.file bytes held) := by
  have hplace : (t.put place (.file bytes held)).get? place = some (.file bytes held) := by
    rw [get?_put _ _ _ _ (not_above_home h), if_pos rfl]
  refine ⟨agreeBut_of_get? rfl h (by rw [hplace]; exact nofun) fun q hprefix hq => ?_, hplace⟩
  rw [get?_put _ _ _ _ hprefix, if_neg hq]

theorem agreeBut_erase (h : t.get? place ≠ some .directory) :
    AgreeBut (· = place) t (t.erase place) ∧ (t.erase place).get? place = none := by
  have hplace : (t.erase place).get? place = none := by
    rw [get?_erase _ _ _ (not_above_home h), if_pos rfl]
  refine ⟨agreeBut_of_get? rfl h (by rw [hplace]; exact nofun) fun q hprefix hq => ?_, hplace⟩
  rw [get?_erase _ _ _ hprefix, if_neg hq]

/-! ## Operations -/

/-- A replacement that succeeds puts the file at the place that the path names. -/
theorem replace_eq_put {nameLength : Nat} (h : (t.replace path bytes nameLength).result = .ok ()) :
    ∃ place, t.At path place
      ∧ (t.replace path bytes nameLength).files = t.put place (.file bytes) := by
  unfold replace at h ⊢
  cases hstaging : t.stagingPlace path nameLength with
  | error e =>
      rw [hstaging] at h
      cases h
  | ok here =>
      simp only [hstaging] at h ⊢
      cases hrename :
          (t.put (here ++ [t.freshName]) (.file bytes)).rename (here ++ [t.freshName]) path with
      | error e =>
          rw [hrename] at h
          cases h
      | ok files =>
          obtain ⟨here', name, place, e, hspot, hchild, hslash, he, hplace, rfl⟩ :=
            rename_eq_ok hrename
          rw [get?_put _ _ _ _ (freshName_not_above_home t here), if_pos rfl] at he
          cases he
          have hstaged : (t.put (here ++ [t.freshName]) (.file bytes)).filePlace path = .ok place :=
            filePlace_eq_ok_iff.mpr ⟨here', name, hspot, hslash, hchild, hplace⟩
          have hhome : t.home = (t.put (here ++ [t.freshName]) (.file bytes)).home := rfl
          have hback : t.filePlace path = .ok place :=
            filePlace_of_directories hhome (fun q => (t.get?_put_freshName_iff here q bytes).symm)
              hstaged
          refine ⟨place, hback, ?_⟩
          dsimp only
          rw [erase_put_freshName]

/-- A replacement changes the file of its path, or nothing. -/
theorem agree_replace (t : FileTree) (path : String) (bytes : ByteArray) (nameLength : Nat) :
    AgreeBut (t.At path) t (t.replace path bytes nameLength).files := by
  cases hresult : (t.replace path bytes nameLength).result with
  | error e =>
      rw [replace_of_error hresult]
      exact .refl _ t
  | ok u =>
      obtain ⟨place, hplace, hput⟩ := replace_eq_put hresult
      rw [hput]
      exact (agreeBut_put hplace.not_directory bytes false).1.mono fun q hq => hq ▸ hplace

/-- A removal that succeeds takes the file away from the place that the path names. -/
theorem remove_eq_erase (h : t.remove path = .ok u) : ∃ place old held, t.At path place
    ∧ t.get? place = some (.file old held) ∧ u = t.erase place := by
  unfold remove at h
  obtain ⟨⟨here, last⟩, hspot, h⟩ := bind_eq_ok.mp h
  split at h
  · rename_i name heq
    cases heq
    obtain ⟨place, hchild, h⟩ := bind_eq_ok.mp h
    split at h
    · rename_i old held hfile
      split at h
      · cases h
      · rename_i hslash
        cases h
        have hplace : t.hasDirectory place = false := by simp [hasDirectory, hfile]
        exact ⟨place, old, held,
          filePlace_eq_ok_iff.mpr ⟨here, name, hspot, by simpa using hslash, hchild, hplace⟩,
          hfile, rfl⟩
    · cases h
    · cases h
  · cases h

/-- A removal fails at a place where a file could be written only if there is none. -/
theorem get?_of_remove_error {e : OsError} (hplace : t.At path place)
    (h : t.remove path = .error e) :
    t.get? place = none := by
  obtain ⟨here, name, hspot, hslash, hchild, -⟩ := filePlace_eq_ok_iff.mp hplace
  rw [remove, hspot] at h
  dsimp only [bind, Except.bind] at h
  rw [hchild] at h
  dsimp only at h
  cases hget : t.get? place with
  | none => rfl
  | some entry =>
      cases entry with
      | directory => exact absurd hget hplace.not_directory
      | file bytes held =>
          rw [hget, hslash] at h
          cases h

theorem hold_eq_put (h : t.hold path = .ok u) :
    ∃ place bytes, t.At path place ∧ u = t.put place (.file bytes true) := by
  obtain ⟨place, hplace, h⟩ := bind_eq_ok.mp h
  cases h
  exact ⟨place, _, hplace, rfl⟩

theorem agree_hold (h : t.hold path = .ok u) : AgreeBut (t.At path) t u := by
  obtain ⟨place, bytes, hplace, rfl⟩ := hold_eq_put h
  exact (agreeBut_put hplace.not_directory bytes true).1.mono fun q hq => hq ▸ hplace

/-! ## Lines for a file that is held open -/

theorem get?_append (t : FileTree) (bytes : ByteArray) (p : Place) :
    (t.append bytes).get? p = (t.get? p).map (Entry.append bytes) := by
  unfold append get?
  cases p.isPrefixOf t.home with
  | true => rfl
  | false =>
      simp only [Bool.false_eq_true, if_false, List.find?_map, Option.map_map]
      rfl

theorem append_of_not_held {e : Entry} (h : e.held = false) (bytes : ByteArray) :
    e.append bytes = e := by
  cases e with
  | directory => rfl
  | file old held =>
      cases held with
      | false => rfl
      | true => cases h

theorem not_held_of_get? (h : t.holds = false) {e : Entry} (he : t.get? p = some e) :
    e.held = false := by
  unfold get? at he
  split at he
  · cases he
    rfl
  · obtain ⟨⟨q, e'⟩, hfind, rfl⟩ := Option.map_eq_some_iff.mp he
    rw [holds, List.any_eq_false] at h
    simpa using h _ (List.mem_of_find?_eq_some hfind)

end FileTree

/-- The lines of the log change no file that is not held open. -/
theorem Session.get?_currentFiles {σ : Type} (s : Session σ) {p : Place}
    (h : ∀ e, s.files.get? p = some e → e.held = false) :
    s.currentFiles.get? p = s.files.get? p := by
  unfold currentFiles
  split
  · rw [FileTree.get?_append]
    cases hget : s.files.get? p with
    | none => rfl
    | some e => exact congrArg some (FileTree.append_of_not_held (h e hget) _)
  · rfl

/-- The lines of the log leave the directories as they are. -/
theorem Session.at_currentFiles {σ : Type} (s : Session σ) {path : String} {p : Place}
    (h : s.files.At path p) :
    s.currentFiles.At path p := by
  unfold currentFiles
  split
  · have hdirectories : ∀ q, (s.files.append s.log.toUTF8).get? q = some .directory
        ↔ s.files.get? q = some .directory := by
      intro q
      rw [FileTree.get?_append]
      rcases s.files.get? q with _ | ⟨old, _ | _⟩ | _
      all_goals simp [Entry.append]
    have hhome : (s.files.append s.log.toUTF8).home = s.files.home := rfl
    exact FileTree.filePlace_of_directories hhome hdirectories h
  · exact h

/-- The layout of a record is what is loaded from its place. -/
theorem Store.tryLoad_of_record {s : Store} {t : FileTree} {l : Layout} {p : Place} {held : Bool}
    (hplace : t.At s.path p) (hfile : t.get? p = some (.file (Record.write l).toUTF8 held))
    (hl : l.check = .ok ()) :
    s.tryLoad t = .ok (some l) := by
  obtain ⟨here, name, hspot, hslash, hchild, -⟩ := FileTree.filePlace_eq_ok_iff.mp hplace
  obtain ⟨hcheck, hname, hwalk, hdir⟩ := FileTree.spot_eq_ok hspot
  have hread := FileTree.read_of_spot hcheck hslash hname.symm hwalk
    (FileTree.demandDirectory_eq_ok_iff.mp hdir) hchild
    hfile
  rw [tryLoad, FileTree.readText_of_read hread]
  dsimp only
  rw [Record.parse_write hl]
  rfl

/-! ## What a file sink and a store do to the files -/

namespace FileSink

variable {k : FileSink} {t : FileTree} {frame : Encoded}

/-- The size of the file that was put in place is never another than that of the
frame. -/
theorem deliver_of_replaced
    (h : (t.replace k.target frame.bytes stagedNameLength).result = .ok ()) :
    k.deliver t frame = { result := .ok (), sink := { k with framesWritten := k.framesWritten + 1 }
                          files := (t.replace k.target frame.bytes stagedNameLength).files } := by
  have hsize : (t.replace k.target frame.bytes stagedNameLength).files.size k.target
      = .ok frame.bytes.size :=
    bind_eq_ok.mpr ⟨frame.bytes, FileTree.read_replace h, rfl⟩
  have hcheck : k.checkSize (t.replace k.target frame.bytes stagedNameLength).files frame
      = .ok () := by
    unfold checkSize
    simp only [hsize, if_true]
  unfold deliver
  simp only [h, hcheck]

/-- A frame that cannot be put in place changes nothing. -/
theorem deliver_of_replace_error {e : FileTree.ReplaceError}
    (h : (t.replace k.target frame.bytes stagedNameLength).result = .error e) :
    k.deliver t frame = { result := .error (k.deliveryError e), sink := k, files := t } := by
  unfold deliver
  simp only [h, FileTree.replace_of_error h]

end FileSink

/-- A frame changes nothing but the file of the sink. -/
theorem FileSink.agree_deliver (k : FileSink) (t : FileTree) (frame : Encoded) :
    t.AgreeBut (t.At k.target) (k.deliver t frame).files
      ∧ (k.deliver t frame).sink.target = k.target := by
  cases hresult : (t.replace k.target frame.bytes stagedNameLength).result with
  | error e =>
      rw [deliver_of_replace_error hresult]
      exact ⟨.refl _ t, rfl⟩
  | ok u =>
      rw [deliver_of_replaced hresult]
      dsimp only
      exact ⟨t.agree_replace k.target frame.bytes stagedNameLength, rfl⟩

/-- After a clean-up there is no file at the place of the sink's file, and
nothing else has changed. -/
theorem FileSink.agree_cleanUp (k : FileSink) (t : FileTree) :
    t.AgreeBut (t.At k.target) (k.cleanUp t).files ∧ (k.cleanUp t).sink.target = k.target
      ∧ ∀ p, t.At k.target p → (k.cleanUp t).files.get? p = none := by
  cases hremove : t.remove k.target with
  | ok u =>
      obtain ⟨place, -, -, hplace, -, rfl⟩ := FileTree.remove_eq_erase hremove
      obtain ⟨hagree, hnone⟩ := FileTree.agreeBut_erase hplace.not_directory
      have hfiles : (k.cleanUp t).files = t.erase place ∧ (k.cleanUp t).sink = k := by
        unfold cleanUp
        rw [hremove]
        exact ⟨rfl, rfl⟩
      rw [hfiles.1, hfiles.2]
      refine ⟨hagree.mono fun q hq => hq ▸ hplace, rfl, fun q hq => ?_⟩
      cases hplace.symm.trans hq
      exact hnone
  | error e =>
      have hfiles : (k.cleanUp t).files = t ∧ (k.cleanUp t).sink = k := by
        unfold cleanUp
        rw [hremove]
        cases e <;> exact ⟨rfl, rfl⟩
      rw [hfiles.1, hfiles.2]
      exact ⟨.refl _ t, rfl, fun q hq => FileTree.get?_of_remove_error hq hremove⟩

/-- A layout that was saved is in the file of the store, and nothing else has
changed. -/
theorem Store.save_eq_put {store : Store} {t : FileTree} {l : Layout}
    (h : (store.save t l).result = .ok ()) :
    l.check = .ok ()
      ∧ ∃ p, t.At store.path p
        ∧ (store.save t l).files = t.put p (.file (Record.write l).toUTF8) := by
  obtain ⟨hcheck, hreplace, hfiles⟩ := save_eq_ok h
  obtain ⟨p, hp, hput⟩ := FileTree.replace_eq_put hreplace
  exact ⟨hcheck, p, hp, hfiles.trans hput⟩

end Scanout
