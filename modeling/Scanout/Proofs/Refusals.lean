import Scanout.Proofs.Following

/-!
# Saves that fail

A save has three steps: the layout is checked, a new file is made in the
directory of the record, and the file takes the place of the record.  Each can
fail, and then nothing has changed (`Store.Saves`).  The new file needs a
directory, the one that the text of the path names
(`FileTree.isDirectory_of_stagingPlace`).
-/

namespace Scanout

namespace FileTree

variable {t : FileTree} {path : String} {bytes : ByteArray} {nameLength : Nat}

/-- Each part of a path is a path, if it is not empty. -/
theorem checkPath_of_append {before after : String}
    (h : checkPath (before ++ path ++ after) = .ok ())
    (hne : path ≠ "") : checkPath path = .ok () := by
  obtain ⟨hzero, -, hsize⟩ := checkPath_eq_ok_iff.mp h
  rw [String.utf8ByteSize_append, String.utf8ByteSize_append] at hsize
  refine checkPath_eq_ok_iff.mpr ⟨?_, hne, by omega⟩
  simp only [Path.hasZero, String.toList_append, List.contains_eq_mem, List.mem_append,
    decide_eq_false_iff_not, not_or] at hzero ⊢
  exact hzero.1.2

/-- A path for the new file is found only if the text of the path names a directory. -/
theorem isDirectory_of_stagingPlace {here : Place} (h : t.stagingPlace path nameLength = .ok here) :
    t.isDirectory (Path.directory path) = true := by
  obtain ⟨⟨⟩, hstaged, h⟩ := bind_eq_ok.mp h
  obtain ⟨here', hwalk, h⟩ := bind_eq_ok.mp h
  obtain ⟨⟨⟩, hdir, -⟩ := bind_eq_ok.mp h
  have hrelative : Path.isAbsolute (String.ofList (List.replicate nameLength 'x')) = false := by
    rw [Path.isAbsolute, String.toList_ofList]
    cases nameLength with
    | zero => rfl
    | succ n => rfl
  obtain ⟨before, hbefore⟩ := Path.exists_append_of_join t.homePath (Path.directory path)
  obtain ⟨after, hafter⟩ :=
    Path.exists_join_of_relative (Path.join t.homePath (Path.directory path)) hrelative
  rw [hafter, hbefore] at hstaged
  have hcheck := checkPath_of_append hstaged (Path.directory_ne_empty path)
  have hlookup : t.lookup (Path.directory path) = .ok .directory := by
    refine bind_eq_ok.mpr ⟨here', bind_eq_ok.mpr ⟨(), hcheck, hwalk⟩, ?_⟩
    rw [demandDirectory_eq_ok_iff.mp hdir]
    rfl
  rw [isDirectory, hlookup]

/-- No new file is made where there is no directory. -/
theorem replace_of_no_directory (h : t.isDirectory (Path.directory path) = false) :
    ∃ e, (t.replace path bytes nameLength).result = .error (.creating e) := by
  unfold replace
  cases hstaging : t.stagingPlace path nameLength with
  | error e => exact ⟨e, rfl⟩
  | ok here => cases h.symm.trans (isDirectory_of_stagingPlace hstaging)

end FileTree

/-! ## Saving -/

namespace Store

/-- What may become of a layout that is to be saved. -/
inductive Saves (s : Store) (t : FileTree) (l : Layout) : Saved → Prop where
  /-- The layout does not pass the check. -/
  | rejected {e} : l.check = .error e → Saves s t l ⟨.error e, t⟩
  /-- The record cannot be replaced. -/
  | refused {e} : l.check = .ok () →
      (t.replace s.path (Record.write l).toUTF8 stagedNameLength).result = .error e →
      Saves s t l ⟨.error (replaceError e), t⟩
  /-- The record holds the layout, and nothing else has changed. -/
  | saved {u} : l.check = .ok () → t.isDirectory (Path.directory s.path) = true →
      t.isDirectory s.path = false →
      t.With s.path (some (Record.write l).toUTF8) u → Saves s t l ⟨.ok (), u⟩

theorem saves (s : Store) (t : FileTree) (l : Layout) : Saves s t l (s.save t l) := by
  unfold save
  cases hcheck : l.check with
  | error e => exact .rejected hcheck
  | ok u =>
      cases hresult : (t.replace s.path (Record.write l).toUTF8 stagedNameLength).result with
      | error e =>
          simp only [hresult, FileTree.replace_of_error hresult]
          exact .refused hcheck hresult
      | ok v =>
          obtain ⟨place, hplace, hput⟩ := FileTree.replace_eq_put hresult
          simp only [hresult, hput]
          refine .saved hcheck ?_ hplace.isDirectory_eq_false (FileTree.with_put hplace _)
          rw [← Bool.not_eq_false]
          intro hdir
          obtain ⟨e, he⟩ := FileTree.replace_of_no_directory hdir
          cases he.symm.trans hresult

variable {s : Store} {t : FileTree} {l : Layout} {r : Saved} {e : Error}

theorem Saves.error_of_check (h : Saves s t l r) (hcheck : l.check = .error e) :
    r.result = .error e := by
  cases h with
  | rejected hcheck' => exact congrArg Except.error (Except.error.inj (hcheck'.symm.trans hcheck))
  | refused hcheck' _ => cases hcheck'.symm.trans hcheck
  | saved hcheck' _ _ _ => cases hcheck'.symm.trans hcheck

theorem Saves.error_of_no_directory (h : Saves s t l r)
    (hdir : t.isDirectory (Path.directory s.path) = false) :
    ∃ e, r.result = .error e
      ∧ (l.check = .error e ∨ ∃ reason, e = .io "creating config temp file" reason) := by
  cases h with
  | rejected hcheck => exact ⟨_, rfl, .inl hcheck⟩
  | refused _ hresult =>
      obtain ⟨e, he⟩ := FileTree.replace_of_no_directory hdir
      cases hresult.symm.trans he
      exact ⟨_, rfl, .inr ⟨e.message, rfl⟩⟩
  | saved _ hdir' _ _ => cases hdir'.symm.trans hdir

theorem Saves.error_of_isDirectory (h : Saves s t l r) (hdir : t.isDirectory s.path = true) :
    ∃ e, r.result = .error e
      ∧ (l.check = .error e ∨ ∃ operation reason, e = .io operation reason) := by
  cases h with
  | rejected hcheck => exact ⟨_, rfl, .inl hcheck⟩
  | @refused e _ _ =>
      cases e with
      | creating e => exact ⟨_, rfl, .inr ⟨_, e.message, rfl⟩⟩
      | replacing e => exact ⟨_, rfl, .inr ⟨_, e.message, rfl⟩⟩
  | saved _ _ hdir' _ => cases hdir'.symm.trans hdir

theorem Saves.files_of_error (h : Saves s t l r) (hresult : r.result = .error e) : r.files = t := by
  cases h with
  | rejected _ => rfl
  | refused _ _ => rfl
  | saved _ _ _ _ => cases hresult

theorem Saves.with_of_ok (h : Saves s t l r) (hresult : r.result = .ok ()) :
    t.With s.path (some (Record.write l).toUTF8) r.files := by
  cases h with
  | rejected _ => cases hresult
  | refused _ _ => cases hresult
  | saved _ _ _ hwith => exact hwith

/-- A layout that does not pass the check is not saved, and none is saved where
the directory of the record is not there or is no directory, or where the record
itself is a directory.  Whatever makes a save fail, nothing has changed.  A save
that succeeds, which is known from the layout, the path and the directories,
changes the record alone, and what the record then holds is told by the
layout. -/
theorem save_all_or_nothing (s : Store) (t : FileTree) (l : Layout) :
    (∀ e, l.check = .error e → (s.save t l).result = .error e)
      ∧ (t.isDirectory (Path.directory s.path) = false → ∃ e, (s.save t l).result = .error e
          ∧ (l.check = .error e ∨ ∃ reason, e = .io "creating config temp file" reason))
      ∧ (t.isDirectory s.path = true → ∃ e, (s.save t l).result = .error e
          ∧ (l.check = .error e ∨ ∃ operation reason, e = .io operation reason))
      ∧ (∀ e, (s.save t l).result = .error e → (s.save t l).files = t)
      ∧ ((s.save t l).result = .ok () →
          t.With s.path (some (Record.write l).toUTF8) (s.save t l).files)
      ∧ ((s.save t l).result = .ok () ↔ l.check = .ok () ∧ (∃ place, t.At s.path place)
          ∧ FileTree.checkPath (t.stagedPath s.path stagedNameLength) = .ok ()) := by
  have h := s.saves t l
  exact ⟨fun _ => h.error_of_check, h.error_of_no_directory, h.error_of_isDirectory,
    fun _ => h.files_of_error, h.with_of_ok, save_eq_ok_iff⟩

/-- Beside one directory a record is saved in it, but not in its place, nor in a
directory that is not there. -/
theorem save_all_or_nothing_small :
    let t : FileTree := .oneDirectory
    ((⟨"d/c"⟩ : Store).save t .standard).result = .ok ()
      ∧ t.With "d/c" (some (Record.write .standard).toUTF8)
          ((⟨"d/c"⟩ : Store).save t .standard).files
      ∧ t.isDirectory "d" = true ∧ ((⟨"d"⟩ : Store).save t .standard).files = t
      ∧ t.isDirectory "e" = false ∧ ((⟨"e/c"⟩ : Store).save t .standard).files = t := by
  intro t
  have hsaved : ((⟨"d/c"⟩ : Store).save t .standard).result = .ok () := by decide +kernel
  have hd : t.isDirectory "d" = true := by decide +kernel
  have he : t.isDirectory "e" = false := by decide +kernel
  obtain ⟨-, -, -, -, hwith, -⟩ := save_all_or_nothing ⟨"d/c"⟩ t .standard
  obtain ⟨-, -, hplace, hfiles, -⟩ := save_all_or_nothing ⟨"d"⟩ t .standard
  obtain ⟨-, hdirectory, -, hfiles', -⟩ := save_all_or_nothing ⟨"e/c"⟩ t .standard
  obtain ⟨e, herror, -⟩ := hplace hd
  obtain ⟨e', herror', -⟩ := hdirectory ((by decide +kernel : Path.directory "e/c" = "e") ▸ he)
  exact ⟨hsaved, hwith hsaved, hd, hfiles e herror, he, hfiles' e' herror'⟩

end Store

end Scanout
