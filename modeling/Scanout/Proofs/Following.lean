import Scanout.Proofs.FileChanges

/-!
# Where paths lead

A path can be followed to the entry that it leads to, and it can name the place
at which a file is made, replaced or removed.  For files the two are the same: a
path leads to a file if and only if there is one at the place that the path
names (`FileTree.isFile_iff`).

That two dots at the end of a path never lead to a file takes an invariant.  A
tree may have entries below a file, but no path comes to them: above each place
to which a path comes there are only directories (`FileTree.Rooted`).

So a change of one file can be told from what the paths lead to
(`FileTree.With`).
-/

namespace Scanout

namespace FileTree

variable {t u : FileTree} {path name : String} {here place p : Place} {parts : List String}

/-! ## Above the places of paths -/

/-- Above a place there are only directories. -/
def Rooted (t : FileTree) (p : Place) : Prop := ∀ q, q <+: p → q ≠ p → t.get? q = some .directory

theorem rooted_origin (t : FileTree) (path : String) : t.Rooted (t.origin path) := by
  unfold origin
  split
  · exact fun q hprefix hne => absurd (List.prefix_nil.mp hprefix) hne
  · exact fun q hprefix _ => get?_above_home (List.isPrefixOf_iff_prefix.mpr hprefix)

/-- Above a directory, and at it, there are only directories. -/
theorem Rooted.get?_eq_directory (h : t.Rooted here) (hdir : t.get? here = some .directory)
    {q : Place}
    (hq : q <+: here) : t.get? q = some .directory := by
  by_cases heq : q = here
  · rw [heq, hdir]
  · exact h q hq heq

theorem Rooted.step {part : String} (h : t.Rooted here) (hstep : t.step here part = .ok place) :
    t.Rooted place := by
  obtain ⟨hdir, hcases⟩ := step_eq_ok hstep
  have hhere := demandDirectory_eq_ok_iff.mp hdir
  rcases hcases with ⟨-, rfl⟩ | ⟨-, -, rfl⟩ | ⟨-, -, hchild, -⟩
  · exact h
  · exact fun q hq _ => h.get?_eq_directory hhere (hq.trans (List.dropLast_prefix here))
  · have hplace : place = here ++ [part] := by
      unfold child at hchild
      split at hchild
      · cases hchild
      · cases hchild
        rfl
    intro q hq hne
    rw [hplace, List.prefix_concat_iff] at hq
    rcases hq with hq | hq
    · exact absurd (hq.trans hplace.symm) hne
    · exact h.get?_eq_directory hhere hq

theorem Rooted.walk (h : t.Rooted here) (hwalk : t.walk here parts = .ok place) :
    t.Rooted place := by
  induction parts generalizing here with
  | nil =>
      cases hwalk
      exact h
  | cons part parts ih =>
      rw [FileTree.walk, List.foldlM_cons] at hwalk
      obtain ⟨next, hstep, hrest⟩ := bind_eq_ok.mp hwalk
      exact ih (h.step hstep) hrest

/-! ## Files and the places of paths -/

theorem walk_concat (h : t.walk here parts = .ok p) :
    t.walk here (parts ++ [name]) = t.step p name := by
  rw [walk] at h
  rw [walk, List.foldlM_append, h]
  exact bind_pure (t.step p name)

/-- A path that leads to a file names its place. -/
theorem at_of_follow {bytes : ByteArray} {held : Bool} (h : t.follow path = .ok place)
    (hfile : t.get? place = some (.file bytes held)) : t.At path place := by
  obtain ⟨⟨⟩, hcheck, hwalk⟩ := bind_eq_ok.mp h
  have hne : Path.split path ≠ [] := mt List.map_eq_nil_iff.mp (Text.split_ne_nil _ _)
  obtain ⟨parts, name, hsplit⟩ : ∃ parts name, Path.split path = parts ++ [name] :=
    ⟨_, _, (List.dropLast_concat_getLast hne).symm⟩
  rw [hsplit] at hwalk
  obtain ⟨here, hparts, -⟩ := walk_append_eq_ok_iff.mp hwalk
  rw [walk_concat hparts] at hwalk
  obtain ⟨hdir, hcases⟩ := step_eq_ok hwalk
  have hhere := demandDirectory_eq_ok_iff.mp hdir
  rcases hcases with ⟨-, rfl⟩ | ⟨-, -, rfl⟩ | ⟨hname, habove, hchild, -⟩
  · cases hhere.symm.trans hfile
  · have hup := ((t.rooted_origin path).walk hparts).get?_eq_directory hhere
      (List.dropLast_prefix here)
    cases hup.symm.trans hfile
  · exact filePlace_eq_ok_iff_split.mpr
      ⟨parts, name, here, hcheck, hsplit, hname, habove, hparts, hhere, hchild, by simp [hfile]⟩

/-- A path leads to the entry at the place that it names. -/
theorem At.lookup (h : t.At path place) :
    t.lookup path = (t.get? place).elim (.error .notFound) .ok := by
  obtain ⟨parts, name, here, hcheck, hsplit, hname, habove, hwalk, hdir, hchild, -⟩ :=
    filePlace_eq_ok_iff_split.mp h
  have hfollow : t.follow path = t.step here name := by
    rw [follow, hcheck, hsplit, ← walk_concat hwalk]
    rfl
  rw [FileTree.lookup, hfollow, step, demandDirectory_eq_ok_iff.mpr hdir, hname, hchild]
  simp only [bind, Except.bind, Bool.false_eq_true, if_false, if_neg habove]
  cases hget : t.get? place with
  | none => rfl
  | some e =>
      simp only [Option.isSome_some, if_true, pure, Except.pure]
      rw [hget]
      rfl

/-- A path leads to a file if and only if there is one at the place that it names. -/
theorem isFile_iff : t.isFile path = true
    ↔ ∃ place bytes held, t.At path place ∧ t.get? place = some (.file bytes held) := by
  constructor
  · intro h
    unfold isFile at h
    split at h
    · rename_i bytes held hlookup
      obtain ⟨place, hfollow, hentry⟩ := bind_eq_ok.mp hlookup
      have hfile : t.get? place = some (.file bytes held) := by
        split at hentry
        · rename_i e hget
          cases hentry
          exact hget
        · cases hentry
      exact ⟨place, bytes, held, at_of_follow hfollow hfile, hfile⟩
    · cases h
  · rintro ⟨place, bytes, held, hplace, hfile⟩
    rw [isFile, hplace.lookup, hfile]
    rfl

/-- A path that names the place of a file leads to no directory. -/
theorem At.isDirectory_eq_false (h : t.At path place) : t.isDirectory path = false := by
  have hplace := h.not_directory
  rw [isDirectory, h.lookup]
  cases hget : t.get? place with
  | none => rfl
  | some e =>
      cases e with
      | file bytes held => rfl
      | directory => exact absurd hget hplace

/-! ## Changes of one file -/

/-- The second tree is the first with another file, or none, at the place that a
path names. -/
def With (t : FileTree) (path : String) (file : Option ByteArray) (u : FileTree) : Prop :=
  ∃ place, t.At path place ∧ t.AgreeBut (· = place) u ∧ u.get? place = file.map .file

/-- The path leads to the file, or to nothing. -/
theorem With.lookup {file : Option ByteArray} (h : t.With path file u) :
    u.lookup path = file.elim (.error .notFound) fun bytes => .ok (.file bytes) := by
  obtain ⟨place, hplace, hagree, hget⟩ := h
  rw [(hagree.at_iff.mpr hplace).lookup, hget]
  cases file with
  | none => rfl
  | some bytes => rfl

theorem with_put (h : t.At path place) (bytes : ByteArray) :
    t.With path (some bytes) (t.put place (.file bytes)) := by
  obtain ⟨hagree, hget⟩ := agreeBut_put h.not_directory bytes false
  exact ⟨place, h, hagree, hget⟩

theorem with_erase (h : t.At path place) : t.With path none (t.erase place) := by
  obtain ⟨hagree, hget⟩ := agreeBut_erase h.not_directory
  exact ⟨place, h, hagree, hget⟩

end FileTree

end Scanout
