import Scanout.Proofs.RecordText
import Scanout.Store

/-!
# A saved layout is found again

A save puts the record into a fresh file and lets it take the place that the
path names, while a load walks along the whole path.  Both come to the same
place (`FileTree.read_rename`): a path that a file can take ends in a name, what
stands before that name is the way to its directory, and a rename leaves every
directory where it was, so the way is still there
(`FileTree.walk_of_directories`).

With the record read as it was written, `Store.tryLoad_save` follows for any
file tree.
-/

namespace Scanout

/-! ## Paths that end in a name -/

/-- Only a text that ends in a separator has an empty part at its end. -/
theorem Text.getLast?_split {separator : Char} {cs : List Char}
    (h : (split separator cs).getLast? = some []) :
    cs = [] ∨ cs.getLast? = some separator := by
  induction cs with
  | nil => exact .inl rfl
  | cons c cs ih =>
      right
      cases hcs : split separator cs with
      | nil => exact absurd hcs (split_ne_nil separator cs)
      | cons part parts =>
          rw [split, hcs] at h
          split at h
          · rename_i hc
            rw [List.getLast?_cons_cons, ← hcs] at h
            rcases ih h with rfl | hlast
            · rw [hc]
              rfl
            · rw [List.getLast?_cons, hlast]
              rfl
          · cases parts with
            | nil => cases h
            | cons next parts =>
                dsimp only at h
                rw [List.getLast?_cons_cons] at h
                have hlast : (split separator cs).getLast? = some [] := by
                  rw [hcs, List.getLast?_cons_cons, h]
                rcases ih hlast with rfl | hlast
                · cases hcs
                · rw [List.getLast?_cons, hlast]
                  rfl

namespace Path

theorem Last.ofPart_eq_name {part name : String} (h : Last.ofPart part = .name name) :
    part = name ∧ part ≠ "." ∧ part ≠ ".." := by
  unfold Last.ofPart at h
  split at h
  · cases h
  · split at h
    · cases h
    · cases h
      exact ⟨rfl, ‹_›, ‹_›⟩

/-- A path that does not end in a slash is its directory's parts and the name at
its end. -/
theorem split_of_last {path name : String} {parts : List String} (hslash : endsInSlash path = false)
    (hempty : path ≠ "") (h : last path = (parts, .name name)) :
    split path = parts ++ [name] ∧ isHere name = false ∧ name ≠ ".." := by
  have hend : (split path).getLast? ≠ some "" := by
    intro hpart
    rw [split, List.getLast?_map, Option.map_eq_some_iff] at hpart
    obtain ⟨cs, hcs, hnil⟩ := hpart
    rw [String.ofList_eq_empty_iff] at hnil
    rw [hnil] at hcs
    rcases Text.getLast?_split hcs with htext | htext
    · exact hempty (String.toList_eq_nil_iff.mp htext)
    · rw [endsInSlash, htext] at hslash
      cases hslash
  cases hparts : (split path).reverse with
  | nil =>
      rw [last, hparts] at h
      cases h
  | cons part rest =>
      have hsplit : split path = rest.reverse ++ [part] := by
        rw [← List.reverse_reverse (split path), hparts, List.reverse_cons]
      have hpart : (part == "") = false := by
        rw [hsplit, List.getLast?_concat] at hend
        simpa using hend
      rw [last, hparts, List.dropWhile_cons_of_neg (by simp [hpart])] at h
      obtain ⟨rfl, hname, habove⟩ := Last.ofPart_eq_name (congrArg Prod.snd h)
      have hdirectory : rest.reverse = parts := congrArg Prod.fst h
      refine ⟨by rw [hsplit, hdirectory], ?_, habove⟩
      rw [isHere, hpart]
      simpa using hname

end Path

namespace FileTree

/-! ## Operations that succeed -/

theorem checkPath_eq_ok_iff {path : String} :
    checkPath path = .ok ()
      ↔ Path.hasZero path = false ∧ path ≠ "" ∧ path.utf8ByteSize ≤ pathLimit := by
  unfold checkPath
  split
  · simp_all
  · split
    · simp_all
    · split
      · simp_all
      · simp_all

theorem checkPath_eq_ok {path : String} (h : checkPath path = .ok ()) : path ≠ "" :=
  (checkPath_eq_ok_iff.mp h).2.1

theorem spot_eq_ok {t : FileTree} {path : String} {here : Place} {last : Path.Last}
    (h : t.spot path = .ok (here, last)) :
    checkPath path = .ok () ∧ last = (Path.last path).2
      ∧ t.walk (t.origin path) (Path.last path).1 = .ok here
      ∧ t.demandDirectory here = .ok () := by
  unfold spot at h
  obtain ⟨⟨⟩, hcheck, h⟩ := bind_eq_ok.mp h
  obtain ⟨place, hwalk, h⟩ := bind_eq_ok.mp h
  obtain ⟨⟨⟩, hdir, h⟩ := bind_eq_ok.mp h
  cases h
  exact ⟨hcheck, rfl, hwalk, hdir⟩

theorem rename_eq_ok {t u : FileTree} {source : Place} {path : String}
    (h : t.rename source path = .ok u) :
    ∃ here name place e, t.spot path = .ok (here, .name name) ∧ child here name = .ok place
      ∧ Path.endsInSlash path = false ∧ t.get? source = some e ∧ t.hasDirectory place = false
      ∧ u = (t.erase source).put place e := by
  unfold rename at h
  dsimp only at h
  split at h
  · cases h
  · obtain ⟨⟨here, last⟩, hspot, h⟩ := bind_eq_ok.mp h
    split at h
    · rename_i name heq
      cases heq
      obtain ⟨place, hchild, h⟩ := bind_eq_ok.mp h
      split at h
      · cases h
      · rename_i hslash
        split at h
        · cases h
        · rename_i e hsource
          split at h
          · cases h
          · rename_i hplace
            cases h
            exact ⟨here, name, place, e, hspot, hchild, by simpa using hslash, hsource,
              by simpa using hplace, rfl⟩
    · cases h

theorem step_eq_ok {t : FileTree} {here place : Place} {part : String}
    (h : t.step here part = .ok place) :
    t.demandDirectory here = .ok ()
      ∧ (Path.isHere part = true ∧ place = here
        ∨ Path.isHere part = false ∧ part = ".." ∧ place = here.dropLast
        ∨ Path.isHere part = false ∧ part ≠ ".." ∧ child here part = .ok place
          ∧ (t.get? place).isSome = true) := by
  unfold step at h
  obtain ⟨⟨⟩, hdir, h⟩ := bind_eq_ok.mp h
  refine ⟨hdir, ?_⟩
  split at h
  · rename_i hhere
    cases h
    exact .inl ⟨hhere, rfl⟩
  · rename_i hhere
    split at h
    · rename_i habove
      cases h
      exact .inr (.inl ⟨by simpa using hhere, habove, rfl⟩)
    · rename_i habove
      obtain ⟨p, hchild, h⟩ := bind_eq_ok.mp h
      split at h
      · rename_i hsome
        cases h
        exact .inr (.inr ⟨by simpa using hhere, habove, hchild, hsome⟩)
      · cases h

theorem demandDirectory_eq_ok_iff {t : FileTree} {p : Place} :
    t.demandDirectory p = .ok () ↔ t.get? p = some .directory := by
  unfold demandDirectory
  split <;> simp_all

/-! ## Walking in a changed tree -/

/-- A walk that ends at a directory started at one. -/
theorem directory_of_walk {t : FileTree} {here place : Place} {parts : List String}
    (h : t.walk here parts = .ok place) (hp : t.get? place = some .directory) :
    t.get? here = some .directory := by
  cases parts with
  | nil =>
      cases h
      exact hp
  | cons part parts =>
      rw [walk, List.foldlM_cons] at h
      obtain ⟨next, hstep, -⟩ := bind_eq_ok.mp h
      exact demandDirectory_eq_ok_iff.mp (step_eq_ok hstep).1

/-- A step to a directory is still possible in a tree that has all directories
of the first. -/
theorem step_of_directories {t u : FileTree}
    (hu : ∀ p, t.get? p = some .directory → u.get? p = some .directory)
    {here place : Place} {part : String} (h : t.step here part = .ok place)
    (hp : t.get? place = some .directory) : u.step here part = .ok place := by
  obtain ⟨hdir, hcases⟩ := step_eq_ok h
  have hdir : u.demandDirectory here = .ok () :=
    demandDirectory_eq_ok_iff.mpr (hu here (demandDirectory_eq_ok_iff.mp hdir))
  unfold step
  refine bind_eq_ok.mpr ⟨(), hdir, ?_⟩
  rcases hcases with ⟨hhere, rfl⟩ | ⟨hhere, rfl, rfl⟩ | ⟨hhere, habove, hchild, -⟩
  · rw [if_pos hhere]
    rfl
  · rfl
  · rw [if_neg (by simp [hhere]), if_neg habove]
    refine bind_eq_ok.mpr ⟨place, hchild, ?_⟩
    rw [hu place hp]
    rfl

/-- A walk to a directory is still possible in a tree that has all directories
of the first. -/
theorem walk_of_directories {t u : FileTree}
    (hu : ∀ p, t.get? p = some .directory → u.get? p = some .directory)
    {here place : Place} {parts : List String} (h : t.walk here parts = .ok place)
    (hp : t.get? place = some .directory) : u.walk here parts = .ok place := by
  induction parts generalizing here with
  | nil => exact h
  | cons part parts ih =>
      rw [walk, List.foldlM_cons] at h ⊢
      obtain ⟨next, hstep, hrest⟩ := bind_eq_ok.mp h
      have hnext := directory_of_walk hrest hp
      exact bind_eq_ok.mpr ⟨next, step_of_directories hu hstep hnext, ih hrest⟩

/-! ## Reading a file that took its place -/

theorem get?_above_home {t : FileTree} {p : Place} (h : p.isPrefixOf t.home = true) :
    t.get? p = some .directory := by
  rw [get?, if_pos h]

/-- A rename leaves every directory where it was. -/
theorem get?_rename_directory {t : FileTree} {source place p : Place} {e : Entry}
    (hsource : t.get? source ≠ some .directory) (hplace : t.get? place ≠ some .directory)
    (h : t.get? p = some .directory) : ((t.erase source).put place e).get? p = some .directory := by
  by_cases hhome : p.isPrefixOf t.home = true
  · exact get?_above_home hhome
  · have hhome : p.isPrefixOf t.home = false := by rwa [Bool.not_eq_true] at hhome
    have hp : p ≠ place := by
      rintro rfl
      exact hplace h
    have hs : p ≠ source := by
      rintro rfl
      exact hsource h
    rw [get?_put (t.erase source) place p e hhome, if_neg hp, get?_erase t source p hhome,
      if_neg hs, h]

/-- The file at the place that a path names is the one read there. -/
theorem read_of_spot {t : FileTree} {path name : String} {here place : Place} {bytes : ByteArray}
    {held : Bool}
    (hcheck : checkPath path = .ok ()) (hslash : Path.endsInSlash path = false)
    (hname : (Path.last path).2 = .name name)
    (hwalk : t.walk (t.origin path) (Path.last path).1 = .ok here)
    (hdir : t.get? here = some .directory) (hchild : child here name = .ok place)
    (hfile : t.get? place = some (.file bytes held)) : t.read path = .ok bytes := by
  obtain ⟨hsplit, hhere, habove⟩ := Path.split_of_last hslash (checkPath_eq_ok hcheck)
    (show Path.last path = ((Path.last path).1, .name name) from Prod.ext rfl hname)
  have hstep : t.step here name = .ok place := by
    unfold step
    refine bind_eq_ok.mpr ⟨(), demandDirectory_eq_ok_iff.mpr hdir, ?_⟩
    rw [if_neg (by simp [hhere]), if_neg habove]
    refine bind_eq_ok.mpr ⟨place, hchild, ?_⟩
    rw [hfile]
    rfl
  have hfollow : t.follow path = .ok place := by
    refine bind_eq_ok.mpr ⟨(), hcheck, ?_⟩
    rw [hsplit, walk, List.foldlM_append]
    refine bind_eq_ok.mpr ⟨here, hwalk, ?_⟩
    rw [List.foldlM_cons, hstep]
    rfl
  have hlookup : t.lookup path = .ok (.file bytes held) := by
    refine bind_eq_ok.mpr ⟨place, hfollow, ?_⟩
    rw [hfile]
    rfl
  exact bind_eq_ok.mpr ⟨_, hlookup, rfl⟩

/-- A file that took the place that a path names is read there. -/
theorem read_rename {t u : FileTree} {source : Place} {path : String} {bytes : ByteArray}
    {held : Bool} (h : t.rename source path = .ok u)
    (hsource : t.get? source = some (.file bytes held)) :
    u.read path = .ok bytes := by
  obtain ⟨here, name, place, e, hspot, hchild, hslash, he, hplace, rfl⟩ := rename_eq_ok h
  obtain ⟨hcheck, hname, hwalk, hdir⟩ := spot_eq_ok hspot
  have he : e = .file bytes held := Option.some.inj (he.symm.trans hsource)
  have hplace : t.get? place ≠ some .directory := by simpa [hasDirectory] using hplace
  have hhome : place.isPrefixOf t.home = false := by
    rw [Bool.eq_false_iff]
    exact fun hprefix => hplace (get?_above_home hprefix)
  have hkeep : ∀ p, t.get? p = some .directory →
      ((t.erase source).put place e).get? p = some .directory := by
    intro p hp
    exact get?_rename_directory (by simp [hsource]) hplace hp
  have hdir := demandDirectory_eq_ok_iff.mp hdir
  have hfile : ((t.erase source).put place e).get? place = some (.file bytes held) := by
    rw [get?_put (t.erase source) place place e hhome, if_pos rfl, he]
  exact read_of_spot hcheck hslash hname.symm (walk_of_directories hkeep hwalk hdir)
    (hkeep here hdir) hchild hfile

/-- The new file is not on the way to the working directory. -/
theorem freshName_not_above_home (t : FileTree) (here : Place) :
    (here ++ [t.freshName]).isPrefixOf t.home = false := by
  rw [Bool.eq_false_iff]
  intro hprefix
  obtain ⟨rest, hhome⟩ := List.isPrefixOf_iff_prefix.mp hprefix
  refine freshName_notMem t ?_
  rw [names, ← hhome]
  simp

theorem read_replace {t : FileTree} {path : String} {bytes : ByteArray} {nameLength : Nat}
    (h : (t.replace path bytes nameLength).result = .ok ()) :
    (t.replace path bytes nameLength).files.read path = .ok bytes := by
  unfold replace at h ⊢
  cases hstaging : t.stagingPlace path nameLength with
  | error e =>
      rw [hstaging] at h
      cases h
  | ok here =>
      simp only [hstaging] at h ⊢
      have hstaged : (t.put (here ++ [t.freshName]) (.file bytes)).get? (here ++ [t.freshName])
          = some (.file bytes) := by
        rw [get?_put _ _ _ _ (freshName_not_above_home t here), if_pos rfl]
      cases hrename :
          (t.put (here ++ [t.freshName]) (.file bytes)).rename (here ++ [t.freshName]) path with
      | error e =>
          rw [hrename] at h
          cases h
      | ok files => exact read_rename hrename hstaged

theorem readText_of_read {t : FileTree} {path text : String} (h : t.read path = .ok text.toUTF8) :
    t.readText path = .ok text := by
  refine bind_eq_ok.mpr ⟨_, h, ?_⟩
  have htext : String.fromUTF8? text.toUTF8 = some text := by
    rw [String.fromUTF8?, String.toUTF8_eq_toByteArray, dif_pos text.isValidUTF8]
    rfl
  rw [htext]
  rfl

end FileTree

/-! ## Loading what was saved -/

theorem Store.save_eq_ok {s : Store} {t : FileTree} {l : Layout}
    (h : (s.save t l).result = .ok ()) :
    l.check = .ok () ∧ (t.replace s.path (Record.write l).toUTF8 stagedNameLength).result = .ok ()
      ∧ (s.save t l).files = (t.replace s.path (Record.write l).toUTF8 stagedNameLength).files := by
  unfold save at h ⊢
  cases hc : l.check with
  | error e =>
      rw [hc] at h
      cases h
  | ok u =>
      simp only [hc] at h ⊢
      cases hr : (t.replace s.path (Record.write l).toUTF8 stagedNameLength).result with
      | error e =>
          rw [hr] at h
          cases h
      | ok v =>
          refine ⟨trivial, rfl, ?_⟩
          dsimp only

/-- A layout that was saved is the one that is loaded. -/
theorem Store.tryLoad_save {s : Store} {t : FileTree} {l : Layout}
    (h : (s.save t l).result = .ok ()) :
    s.tryLoad (s.save t l).files = .ok (some l) := by
  obtain ⟨hcheck, hreplace, hfiles⟩ := save_eq_ok h
  have hread := FileTree.readText_of_read (FileTree.read_replace hreplace)
  rw [tryLoad, hfiles, hread]
  dsimp only
  rw [Record.parse_write hcheck]
  rfl

end Scanout
