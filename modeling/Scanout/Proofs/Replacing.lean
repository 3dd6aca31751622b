import Scanout.Proofs.Paths
import Scanout.Proofs.Saving

/-!
# When a record is replaced

A save puts a new file beside the record and renames it.  It finds the directory
twice, in two ways: the new file goes to the parent that the text of the path
names (`Path.parent?`), and the rename walks along the parts before the last
(`Path.last`).  Both lead to the same directory (`FileTree.walk_directory`),
because the parts that the text leaves out name the directory they stand in.

So a file can be replaced if and only if it could be written, and if there is
room for the path of the new file (`FileTree.replace_eq_ok_iff`).  That path
starts at the root, so it can be too long although the path of the record is not
(`Store.save_detour_fails`).

What was saved last is what is read, however many saves there were
(`Store.tryLoad_saveAll`).
-/

namespace Scanout

namespace FileTree

/-! ## Two ways to a directory -/

section Walks

variable {t : FileTree} {here place : Place} {path first name : String} {parts rest : List String}

theorem get?_root (t : FileTree) : t.get? [] = some .directory := get?_above_home rfl

theorem get?_home (t : FileTree) : t.get? t.home = some .directory :=
  get?_above_home (List.isPrefixOf_iff_prefix.mpr List.prefix_rfl)

theorem step_here {part : String} (hpart : Path.isHere part = true)
    (hdir : t.get? here = some .directory) :
    t.step here part = .ok here := by
  unfold step
  refine bind_eq_ok.mpr ⟨(), demandDirectory_eq_ok_iff.mpr hdir, ?_⟩
  rw [if_pos hpart]
  rfl

theorem walk_here (hrest : ∀ part ∈ rest, Path.isHere part = true)
    (hdir : t.get? here = some .directory) :
    t.walk here rest = .ok here := by
  induction rest with
  | nil => rfl
  | cons part rest ih =>
      obtain ⟨hpart, hrest⟩ := List.forall_mem_cons.mp hrest
      rw [walk, List.foldlM_cons]
      exact bind_eq_ok.mpr ⟨here, step_here hpart hdir, ih hrest⟩

theorem walk_append_eq_ok_iff :
    t.walk here (parts ++ rest) = .ok place
      ↔ ∃ p, t.walk here parts = .ok p ∧ t.walk p rest = .ok place := by
  rw [walk, List.foldlM_append]
  exact bind_eq_ok

/-- Parts at the end that name the directory they stand in can be left out. -/
theorem walk_of_append_here (h : t.walk here (parts ++ rest) = .ok place)
    (hplace : t.get? place = some .directory)
    (hrest : ∀ part ∈ rest, Path.isHere part = true) : t.walk here parts = .ok place := by
  obtain ⟨p, hparts, hwalk⟩ := walk_append_eq_ok_iff.mp h
  rw [walk_here hrest (directory_of_walk hwalk hplace)] at hwalk
  cases hwalk
  exact hparts

/-- The directory that the text of a path names is the one to which the parts
before its last lead. -/
theorem walk_directory (hsplit : Path.split path = parts ++ [name])
    (hname : Path.isHere name = false) (hwalk : t.walk (t.origin path) parts = .ok here)
    (hdir : t.get? here = some .directory) :
    t.walk (t.origin (Path.directory path)) (Path.split (Path.directory path)) = .ok here := by
  have hname' : name ≠ "" := by
    rintro rfl
    cases hname
  cases parts with
  | nil =>
      have hrelative : Path.isAbsolute path = false := by
        rw [Bool.eq_false_iff]
        intro h
        obtain ⟨part, rest, h⟩ := Path.isAbsolute_iff.mp h
        rw [hsplit] at h
        exact hname' (List.cons.inj h).1
      rw [origin, hrelative] at hwalk
      cases hwalk
      rw [Path.directory_of_single hsplit hname]
      exact walk_here (by decide) t.get?_home
  | cons first parts =>
      obtain ⟨rest, hrest, hhere⟩ := Path.exists_trimmed parts
      have habsolute : Path.isAbsolute path = true ↔ first = "" := by
        rw [Path.isAbsolute_iff, hsplit]
        constructor
        · rintro ⟨part, parts, h⟩
          exact (List.cons.inj h).1
        · rintro rfl
          obtain ⟨part, rest, h⟩ := List.exists_cons_of_ne_nil (List.concat_ne_nil name parts)
          exact ⟨part, rest, congrArg _ h⟩
      rcases Path.directory_of_split hsplit hname with ⟨rfl, htrimmed, hroot⟩ | ⟨hfirst, -, hparts⟩
      · -- Nothing but dots stands between the root and the name.
        rw [htrimmed, List.nil_append] at hrest
        rw [origin, habsolute.mpr rfl, if_pos rfl] at hwalk
        rw [walk_here (List.forall_mem_cons.mpr ⟨rfl, by rwa [hrest]⟩) t.get?_root] at hwalk
        cases hwalk
        rw [hroot]
        exact walk_here (by decide) t.get?_root
      · have horigin : t.origin (Path.directory path) = t.origin path := by
          have hsame : Path.isAbsolute (Path.directory path) = Path.isAbsolute path := by
            rw [Bool.eq_iff_iff, habsolute, Path.isAbsolute_iff, hparts]
            constructor
            · rintro ⟨part, rest, h⟩
              exact (List.cons.inj h).1
            · intro h
              obtain ⟨part, rest, hcons⟩ := List.exists_cons_of_ne_nil (hfirst h)
              exact ⟨part, rest, by rw [h, hcons]⟩
          rw [origin, origin, hsame]
        rw [horigin, hparts]
        rw [hrest, ← List.cons_append] at hwalk
        exact walk_of_append_here hwalk hdir hhere

end Walks

/-! ## Trees with the same directories -/

section Directories

variable {t u : FileTree} {path : String} {here place source : Place} {last : Path.Last}

theorem filePlace_eq_ok_iff :
    t.filePlace path = .ok place
      ↔ ∃ here name, t.spot path = .ok (here, .name name)
          ∧ Path.endsInSlash path = false ∧ child here name = .ok place
          ∧ t.hasDirectory place = false := by
  unfold filePlace
  constructor
  · intro h
    obtain ⟨⟨here, last⟩, hspot, h⟩ := bind_eq_ok.mp h
    split at h
    · rename_i name heq
      cases heq
      split at h
      · cases h
      · rename_i hslash
        obtain ⟨p, hchild, h⟩ := bind_eq_ok.mp h
        split at h
        · cases h
        · rename_i hplace
          cases h
          exact ⟨here, name, hspot, by simpa using hslash, hchild, by simpa using hplace⟩
    · cases h
  · rintro ⟨here, name, hspot, hslash, hchild, hplace⟩
    refine bind_eq_ok.mpr ⟨_, hspot, ?_⟩
    dsimp only
    rw [hslash, if_neg Bool.false_ne_true]
    refine bind_eq_ok.mpr ⟨place, hchild, ?_⟩
    rw [hplace, if_neg Bool.false_ne_true]
    rfl

/-- A path names the place of a file if and only if its last part is a name and
the others lead to a directory. -/
theorem filePlace_eq_ok_iff_split :
    t.filePlace path = .ok place
      ↔ ∃ parts name here, checkPath path = .ok ()
          ∧ Path.split path = parts ++ [name] ∧ Path.isHere name = false ∧ name ≠ ".."
          ∧ t.walk (t.origin path) parts = .ok here ∧ t.get? here = some .directory
          ∧ child here name = .ok place ∧ t.get? place ≠ some .directory := by
  have hfile : t.hasDirectory place = false ↔ t.get? place ≠ some .directory := by
    simp [hasDirectory]
  rw [filePlace_eq_ok_iff]
  constructor
  · rintro ⟨here, name, hspot, hslash, hchild, hplace⟩
    obtain ⟨hcheck, hlast, hwalk, hdir⟩ := spot_eq_ok hspot
    obtain ⟨hsplit, hname, habove⟩ := Path.split_of_last hslash (checkPath_eq_ok hcheck)
      (show Path.last path = ((Path.last path).1, .name name) from Prod.ext rfl hlast.symm)
    exact ⟨_, name, here, hcheck, hsplit, hname, habove, hwalk, demandDirectory_eq_ok_iff.mp hdir,
      hchild, hfile.mp hplace⟩
  · rintro ⟨parts, name, here, hcheck, hsplit, hname, habove, hwalk, hdir, hchild, hplace⟩
    have hempty : name ≠ "" := by
      rintro rfl
      cases hname
    have hspot : t.spot path = .ok (here, .name name) := by
      refine bind_eq_ok.mpr ⟨(), hcheck, ?_⟩
      rw [Path.last_of_split hsplit hname habove]
      refine bind_eq_ok.mpr ⟨here, hwalk, ?_⟩
      exact bind_eq_ok.mpr ⟨(), demandDirectory_eq_ok_iff.mpr hdir, rfl⟩
    exact ⟨here, name, hspot, Path.endsInSlash_of_split hsplit hempty, hchild, hfile.mpr hplace⟩

/-- A file can take the place that a path names if and only if it is there and a
file could be written. -/
theorem rename_eq_ok_iff :
    (∃ u, t.rename source path = .ok u)
      ↔ (t.get? source).isSome = true ∧ ∃ place, t.filePlace path = .ok place := by
  constructor
  · rintro ⟨u, h⟩
    obtain ⟨here, name, place, e, hspot, hchild, hslash, he, hplace, -⟩ := rename_eq_ok h
    exact ⟨by rw [he]; rfl, place,
      filePlace_eq_ok_iff.mpr ⟨here, name, hspot, hslash, hchild, hplace⟩⟩
  · rintro ⟨hsource, place, h⟩
    obtain ⟨e, he⟩ := Option.isSome_iff_exists.mp hsource
    obtain ⟨here, name, hspot, hslash, hchild, hplace⟩ := filePlace_eq_ok_iff.mp h
    obtain ⟨hcheck, -⟩ := spot_eq_ok hspot
    obtain ⟨hzero, -, -⟩ := checkPath_eq_ok_iff.mp hcheck
    refine ⟨(t.erase source).put place e, ?_⟩
    unfold rename
    rw [hzero, if_neg Bool.false_ne_true]
    refine bind_eq_ok.mpr ⟨_, hspot, ?_⟩
    refine bind_eq_ok.mpr ⟨place, hchild, ?_⟩
    rw [hslash, if_neg Bool.false_ne_true, he]
    dsimp only
    rw [hplace, if_neg Bool.false_ne_true]
    rfl

/-- In a tree with the same directories a path names the same place for a file. -/
theorem filePlace_of_directories (hhome : u.home = t.home)
    (hu : ∀ p, u.get? p = some .directory ↔ t.get? p = some .directory)
    (h : t.filePlace path = .ok place) :
    u.filePlace path = .ok place := by
  obtain ⟨parts, name, here, hcheck, hsplit, hname, habove, hwalk, hdir, hchild, hplace⟩ :=
    filePlace_eq_ok_iff_split.mp h
  have horigin : u.origin path = t.origin path := by rw [origin, origin, hhome]
  have hwalk : u.walk (u.origin path) parts = .ok here := by
    rw [horigin]
    exact walk_of_directories (fun p => (hu p).mpr) hwalk hdir
  exact filePlace_eq_ok_iff_split.mpr
    ⟨parts, name, here, hcheck, hsplit, hname, habove, hwalk, (hu here).mpr hdir,
      hchild, mt (hu place).mp hplace⟩

theorem get?_freshName (t : FileTree) (here : Place) : t.get? (here ++ [t.freshName]) = none := by
  rw [get?, freshName_not_above_home, if_neg Bool.false_ne_true, Option.map_eq_none_iff,
    List.find?_eq_none]
  rintro ⟨p, e⟩ hmem
  simpa using ne_freshName hmem here

/-- A fresh file changes no directory. -/
theorem get?_put_freshName_iff (t : FileTree) (here p : Place) (bytes : ByteArray) :
    (t.put (here ++ [t.freshName]) (.file bytes)).get? p = some .directory
      ↔ t.get? p = some .directory := by
  by_cases hhome : p.isPrefixOf t.home = true
  · exact ⟨fun _ => get?_above_home hhome, fun _ => get?_above_home hhome⟩
  · rw [Bool.not_eq_true] at hhome
    rw [get?_put t _ p _ hhome]
    split
    · rename_i hp
      rw [hp, get?_freshName]
      exact ⟨fun h => (nomatch h), fun h => nomatch h⟩
    · exact Iff.rfl

end Directories

/-! ## Replacing a file -/

/-- The path of the file that a replacement makes first. -/
def stagedPath (t : FileTree) (path : String) (nameLength : Nat) : String :=
  Path.join (Path.join t.homePath (Path.directory path))
    (String.ofList (List.replicate nameLength 'x'))

variable {t : FileTree} {path : String} {bytes : ByteArray} {nameLength : Nat}

theorem exists_stagingPlace {place : Place} (h : t.filePlace path = .ok place)
    (hstaged : checkPath (t.stagedPath path nameLength) = .ok ()) :
    ∃ here, t.stagingPlace path nameLength = .ok here := by
  obtain ⟨parts, name, here, -, hsplit, hname, -, hwalk, hdir, -, -⟩ :=
    filePlace_eq_ok_iff_split.mp h
  have hdirectory := walk_directory hsplit hname hwalk hdir
  refine ⟨here, bind_eq_ok.mpr ⟨(), hstaged, ?_⟩⟩
  refine bind_eq_ok.mpr ⟨here, hdirectory, ?_⟩
  exact bind_eq_ok.mpr ⟨(), demandDirectory_eq_ok_iff.mpr hdir, rfl⟩

/-- A fresh file can take the place that a path names if and only if a file
could be written there. -/
theorem rename_freshName_eq_ok_iff (here : Place) (bytes : ByteArray) :
    (∃ u, (t.put (here ++ [t.freshName]) (.file bytes)).rename (here ++ [t.freshName]) path = .ok u)
      ↔ ∃ place, t.filePlace path = .ok place := by
  have hhome : (t.put (here ++ [t.freshName]) (.file bytes)).home = t.home := rfl
  have hiff := fun p => t.get?_put_freshName_iff here p bytes
  rw [rename_eq_ok_iff, get?_put _ _ _ _ (freshName_not_above_home t here), if_pos rfl]
  constructor
  · rintro ⟨-, place, h⟩
    exact ⟨place, filePlace_of_directories hhome.symm (fun p => (hiff p).symm) h⟩
  · rintro ⟨place, h⟩
    exact ⟨rfl, place, filePlace_of_directories hhome hiff h⟩

/-- A file can be replaced if and only if it could be written and there is room
for the path of the new file. -/
theorem replace_eq_ok_iff : (t.replace path bytes nameLength).result = .ok ()
    ↔ (∃ place, t.filePlace path = .ok place)
      ∧ checkPath (t.stagedPath path nameLength) = .ok () := by
  unfold replace
  constructor
  · intro h
    cases hstaging : t.stagingPlace path nameLength with
    | error e =>
        rw [hstaging] at h
        cases h
    | ok here =>
        obtain ⟨⟨⟩, hcheck, -⟩ := bind_eq_ok.mp hstaging
        refine ⟨(rename_freshName_eq_ok_iff here bytes).mp ?_, hcheck⟩
        rw [hstaging] at h
        dsimp only at h
        split at h
        · cases h
        · exact ⟨_, ‹_›⟩
  · rintro ⟨⟨place, hplace⟩, hstaged⟩
    obtain ⟨here, hstaging⟩ := exists_stagingPlace hplace hstaged
    obtain ⟨u, hu⟩ := (rename_freshName_eq_ok_iff here bytes).mpr ⟨place, hplace⟩
    rw [hstaging]
    dsimp only
    rw [hu]

end FileTree

/-! ## Saving and loading -/

namespace Store

variable {s : Store} {t : FileTree} {l : Layout}

/-- A save succeeds if and only if the layout passes the check, a file could be
written in the place of the record, and there is room for the path of the new
file. -/
theorem save_eq_ok_iff :
    (s.save t l).result = .ok ()
      ↔ l.check = .ok () ∧ (∃ place, t.filePlace s.path = .ok place)
        ∧ FileTree.checkPath (t.stagedPath s.path stagedNameLength) = .ok () := by
  have hreplace : (t.replace s.path (Record.write l).toUTF8 stagedNameLength).result = .ok () ↔ _ :=
    FileTree.replace_eq_ok_iff
  rw [← hreplace]
  constructor
  · intro h
    obtain ⟨hcheck, hreplace, -⟩ := save_eq_ok h
    exact ⟨hcheck, hreplace⟩
  · rintro ⟨hcheck, hreplace⟩
    unfold save
    rw [hcheck]
    dsimp only
    rw [hreplace]

theorem load_save (h : (s.save t l).result = .ok ()) : s.load (s.save t l).files = l := by
  rw [load, tryLoad_save h]

/-- The files after several saves. -/
def saveAll (s : Store) : FileTree → List Layout → FileTree
  | t, [] => t
  | t, l :: ls => saveAll s (s.save t l).files ls

/-- Of several layouts, those of which the save succeeds. -/
def kept (s : Store) : FileTree → List Layout → List Layout
  | _, [] => []
  | t, l :: ls => (if (s.save t l).result.isOk then [l] else []) ++ kept s (s.save t l).files ls

/-- After several saves the last one that succeeded is read.  If none did, what
is read is what was read before. -/
theorem tryLoad_saveAll (s : Store) (t : FileTree) (ls : List Layout) :
    s.tryLoad (s.saveAll t ls)
      = (s.kept t ls).getLast?.elim (s.tryLoad t) fun l => .ok (some l) := by
  induction ls generalizing t with
  | nil => rfl
  | cons l ls ih =>
      rw [saveAll, ih, kept, List.getLast?_append]
      cases hlast : (s.kept (s.save t l).files ls).getLast? with
      | some l' => rfl
      | none =>
          cases hsave : (s.save t l).result with
          | error e =>
              rw [save_of_error hsave]
              rfl
          | ok u =>
              rw [tryLoad_save hsave]
              rfl

theorem load_saveAll (s : Store) (t : FileTree) (ls : List Layout) :
    s.load (s.saveAll t ls) = (s.kept t ls).getLast?.getD (s.load t) := by
  rw [load, tryLoad_saveAll]
  cases (s.kept t ls).getLast? with
  | none => rfl
  | some l => rfl

/-- A save succeeds for every layout that passes the check, if a file could be
written in the place of the record and there is room for the path of the new
file.  Then the layout is what is read, whatever was there before.  After
several saves it is the last one that was saved. -/
theorem saved_is_loaded (s : Store) (t : FileTree) (l : Layout) (ls : List Layout) :
    ((s.save t l).result = .ok () ↔ l.check = .ok () ∧ (∃ place, t.filePlace s.path = .ok place)
        ∧ FileTree.checkPath (t.stagedPath s.path stagedNameLength) = .ok ())
      ∧ ((s.save t l).result = .ok () →
          s.tryLoad (s.save t l).files = .ok (some l) ∧ s.load (s.save t l).files = l)
      ∧ (s.tryLoad (s.saveAll t ls)
          = (s.kept t ls).getLast?.elim (s.tryLoad t) fun l => .ok (some l))
      ∧ s.load (s.saveAll t ls) = (s.kept t ls).getLast?.getD (s.load t) :=
  ⟨save_eq_ok_iff, fun h => ⟨tryLoad_save h, load_save h⟩, s.tryLoad_saveAll t ls,
    s.load_saveAll t ls⟩

example : ((⟨"best"⟩ : Store).save {} .standard).result = .ok () := by decide +kernel

end Store

/-! ## A path that is too long for its neighbour -/

namespace Path

/-- The path of a file, with so many ways into a directory and back before it. -/
def detour : Nat → String
  | 0 => "c"
  | n + 1 => "d/../" ++ detour n

theorem toList_detour (n : Nat) :
    (detour (n + 1)).toList = 'd' :: '/' :: '.' :: '.' :: '/' :: (detour n).toList := by
  rw [detour, String.toList_append]
  rfl

theorem split_detour (n : Nat) : split (detour (n + 1)) = "d" :: ".." :: split (detour n) := by
  rw [split, toList_detour, split]
  rfl

theorem utf8ByteSize_detour (n : Nat) : (detour n).utf8ByteSize = 5 * n + 1 := by
  induction n with
  | zero => rfl
  | succ n ih =>
      rw [detour, String.utf8ByteSize_append, ih, show "d/../".utf8ByteSize = 5 from rfl]
      omega

theorem hasZero_detour (n : Nat) : hasZero (detour n) = false := by
  induction n with
  | zero => decide
  | succ n ih =>
      rw [hasZero] at ih ⊢
      rw [toList_detour]
      simpa using ih

/-- The directory of a detour is all of it but the name of the file. -/
theorem detour_eq_directory (n : Nat) : ∃ parts, split (directory (detour (n + 1))) = "d" :: parts
    ∧ detour (n + 1) = directory (detour (n + 1)) ++ "/" ++ "c" := by
  have hsplit : ∃ parts, split (detour (n + 1)) = "d" :: (parts ++ [".."] ++ ["c"]) := by
    induction n with
    | zero => exact ⟨[], rfl⟩
    | succ n ih =>
        obtain ⟨parts, hparts⟩ := ih
        exact ⟨".." :: "d" :: parts, by rw [split_detour, hparts]; rfl⟩
  obtain ⟨parts, hsplit⟩ := hsplit
  have htrimmed : trimmed (parts ++ [".."]) = parts ++ [".."] := trimmed_concat rfl
  rcases directory_of_split hsplit rfl with ⟨hfirst, -, -⟩ | ⟨-, hdirectory, hparts⟩
  · exact absurd hfirst (by decide)
  · refine ⟨_, hparts, ?_⟩
    rw [hdirectory, htrimmed, ← String.intercalate_singleton (s := "/") (t := "c"), ofParts,
      ← String.intercalate_append_of_ne_nil (List.cons_ne_nil _ _) (List.cons_ne_nil _ _),
      ← ofParts, List.cons_append, ← hsplit, ofParts_split]

end Path

namespace FileTree

/-- A directory at the root, which is the working directory. -/
def oneDirectory : FileTree := { entries := [(["d"], .directory)] }

theorem walk_detour (n : Nat) :
    ∃ parts, Path.split (Path.detour n) = parts ++ ["c"] ∧ oneDirectory.walk [] parts = .ok [] := by
  induction n with
  | zero => exact ⟨[], rfl, rfl⟩
  | succ n ih =>
      obtain ⟨parts, hsplit, hwalk⟩ := ih
      refine ⟨"d" :: ".." :: parts, ?_, ?_⟩
      · rw [Path.split_detour, hsplit]
        rfl
      · exact walk_append_eq_ok_iff.mpr
          ⟨[], (by decide : oneDirectory.walk [] ["d", ".."] = .ok []), hwalk⟩

theorem filePlace_detour {n : Nat} (hn : 5 * n + 1 ≤ pathLimit) :
    oneDirectory.filePlace (Path.detour n) = .ok ["c"] := by
  obtain ⟨parts, hsplit, hwalk⟩ := walk_detour n
  have hsize := Path.utf8ByteSize_detour n
  have hcheck : checkPath (Path.detour n) = .ok () := by
    refine checkPath_eq_ok_iff.mpr ⟨Path.hasZero_detour n, ?_, by omega⟩
    intro hempty
    rw [hempty] at hsize
    exact absurd hsize (by simp)
  have horigin : oneDirectory.origin (Path.detour n) = [] := by
    unfold origin
    split
    · rfl
    · rfl
  refine filePlace_eq_ok_iff_split.mpr
    ⟨parts, "c", [], hcheck, hsplit, rfl, by decide, ?_, rfl, by decide, by decide⟩
  rw [horigin, hwalk]

/-- The path of the new file is longer than that of the record. -/
theorem utf8ByteSize_stagedPath_detour (n : Nat) :
    5 * n + 15
      ≤ (oneDirectory.stagedPath (Path.detour (n + 1)) Store.stagedNameLength).utf8ByteSize := by
  obtain ⟨parts, hparts, hpath⟩ := Path.detour_eq_directory n
  have hsize := Path.utf8ByteSize_detour (n + 1)
  rw [hpath, String.utf8ByteSize_append, String.utf8ByteSize_append,
    show "/".utf8ByteSize = 1 from rfl, show "c".utf8ByteSize = 1 from rfl] at hsize
  have hrelative : Path.isAbsolute (Path.directory (Path.detour (n + 1))) = false := by
    rw [Bool.eq_false_iff]
    intro h
    obtain ⟨part, rest, h⟩ := Path.isAbsolute_iff.mp h
    rw [hparts] at h
    exact absurd (List.cons.inj h).1 (by decide)
  have hhome := Path.utf8ByteSize_le_join oneDirectory.homePath hrelative
  have hname : (String.ofList (List.replicate Store.stagedNameLength 'x')).utf8ByteSize = 10 := by
    decide +kernel
  have hnamed :
      Path.isAbsolute (String.ofList (List.replicate Store.stagedNameLength 'x')) = false := by
    decide +kernel
  have hjoin := Path.utf8ByteSize_le_join
    (Path.join oneDirectory.homePath (Path.directory (Path.detour (n + 1)))) hnamed
  rw [hname] at hjoin
  have hone : oneDirectory.homePath.utf8ByteSize = 1 := by decide +kernel
  rw [stagedPath]
  omega

end FileTree

/-- A file could be written, but the path of the new file is too long, and so
the layout cannot be saved. -/
theorem Store.save_detour_fails :
    let s : Store := ⟨Path.detour 818⟩
    Layout.standard.check = .ok () ∧ FileTree.oneDirectory.filePlace s.path = .ok ["c"]
      ∧ (s.save FileTree.oneDirectory .standard).result ≠ .ok () := by
  intro s
  refine ⟨by decide, FileTree.filePlace_detour (by decide), ?_⟩
  intro h
  obtain ⟨-, -, hstaged⟩ := save_eq_ok_iff.mp h
  obtain ⟨-, -, hsize⟩ := FileTree.checkPath_eq_ok_iff.mp hstaged
  have hlong : 5 * 817 + 15
      ≤ (FileTree.oneDirectory.stagedPath s.path stagedNameLength).utf8ByteSize :=
    FileTree.utf8ByteSize_stagedPath_detour 817
  have hlimit : FileTree.pathLimit = 4095 := rfl
  omega

end Scanout
