import Scanout.Bytes
import Scanout.Files.Path

/-!
# File trees

A `FileTree` is a set of files and directories, each at its place: the names
that lead to it from the root.  Paths that do not start with a slash start at
the working directory, which is always there, and so are the directories above
it.  `FileTree.follow` walks along a path, and the operations below it fail the
way an operating system does, with an `OsError`.

Making a directory together with those above it, and removing one together with
all below it, take several steps.  When a later step fails, the earlier ones
stay done.

`FileTree.replace` puts a file in place of another in one step, so that a reader
never sees half of it: the bytes go into a new file of a name not in use, which
then takes the place of the old.  If either step fails, the tree is as it was
(`replace_of_error`).

A file can be held open to write at its end.  What is written goes to that file
for as long as it is there: it is lost once another file has taken its place, or
it was removed.
-/

namespace Scanout

/-! ## Errors of the operating system -/

/-- Why the operating system refuses an operation. -/
inductive OsError where
  | notFound
  | busy
  | exists
  | notDirectory
  | isDirectory
  | invalid
  | nameTooLong
  | notEmpty
  /-- The text cannot be a path at all. -/
  | zeroByte
  /-- The bytes of a file are not text. -/
  | notText
deriving DecidableEq, Repr

/-- The text of an error of the operating system. -/
def OsError.message : OsError → String
  | notFound => "No such file or directory (os error 2)"
  | busy => "Device or resource busy (os error 16)"
  | .exists => "File exists (os error 17)"
  | notDirectory => "Not a directory (os error 20)"
  | isDirectory => "Is a directory (os error 21)"
  | invalid => "Invalid argument (os error 22)"
  | nameTooLong => "File name too long (os error 36)"
  | notEmpty => "Directory not empty (os error 39)"
  | zeroByte => "file name contained an unexpected NUL byte"
  | notText => "stream did not contain valid UTF-8"

/-! ## Trees -/

/-- A file or a directory. -/
inductive Entry where
  /-- A file with its bytes.  It may be held open to write at its end. -/
  | file (bytes : ByteArray) (held : Bool := false)
  | directory
deriving DecidableEq

namespace Entry

/-- The entry is a file that is held open. -/
def held : Entry → Bool
  | file _ held => held
  | directory => false

/-- The entry after bytes were written at its end, if it is held open. -/
def append (bytes : ByteArray) : Entry → Entry
  | file old true => file (old ++ bytes) true
  | e => e

end Entry

/-- The names that lead to an entry from the root. -/
abbrev Place := List String

/-- Files and directories at their places. -/
structure FileTree where
  /-- The place of the working directory. -/
  home : Place := []
  /-- The entries.  The working directory and those above it are there without
  an entry. -/
  entries : List (Place × Entry) := []
deriving DecidableEq

namespace FileTree

/-- The entry at a place. -/
def get? (t : FileTree) (p : Place) : Option Entry :=
  if p.isPrefixOf t.home then some .directory
  else (t.entries.find? fun (q, _) => q == p).map Prod.snd

/-- There is a directory at a place. -/
def hasDirectory (t : FileTree) (p : Place) : Bool := t.get? p == some .directory

/-- The tree without the entry at a place. -/
def erase (t : FileTree) (p : Place) : FileTree :=
  { t with entries := t.entries.filter fun (q, _) => q != p }

/-- The tree with an entry at a place. -/
def put (t : FileTree) (p : Place) (e : Entry) : FileTree :=
  { t with entries := (p, e) :: (t.erase p).entries }

/-- The tree without what is in the directory at a place. -/
def eraseBelow (t : FileTree) (p : Place) : FileTree :=
  { t with entries := t.entries.filter fun (q, _) => q == p || !p.isPrefixOf q }

theorem get?_erase (t : FileTree) (p q : Place) (hq : q.isPrefixOf t.home = false) :
    (t.erase p).get? q = if q = p then none else t.get? q := by
  simp only [get?, erase, hq, Bool.false_eq_true, if_false]
  induction t.entries with
  | nil => simp
  | cons x xs ih =>
      obtain ⟨r, e⟩ := x
      by_cases hr : r = p
      · by_cases h : q = p
        · simp_all
        · have : ¬ p = q := fun h' => h h'.symm
          simp_all
      · by_cases h : r = q <;> simp_all

theorem get?_put (t : FileTree) (p q : Place) (e : Entry) (hq : q.isPrefixOf t.home = false) :
    (t.put p e).get? q = if q = p then some e else t.get? q := by
  have h := get?_erase t p q hq
  simp only [get?, put, erase, hq, Bool.false_eq_true, if_false] at h ⊢
  by_cases hp : p = q
  · simp [hp]
  · have hqp : ¬ q = p := fun h' => hp h'.symm
    rw [if_neg hqp] at h
    rw [if_neg hqp, ← h, List.find?_cons_of_neg (by simpa using hp)]

/-! ## Walking along a path -/

/-- The longest name of an entry, in bytes. -/
def nameLimit : Nat := 255

/-- The longest path, in bytes. -/
def pathLimit : Nat := 4095

/-- The place of an entry in a directory, by a name that is not too long. -/
def child (here : Place) (name : String) : Except OsError Place :=
  if nameLimit < name.utf8ByteSize then .error .nameTooLong else .ok (here ++ [name])

/-- Demand that there is a directory at a place. -/
def demandDirectory (t : FileTree) (p : Place) : Except OsError Unit :=
  match t.get? p with
  | some .directory => .ok ()
  | some (.file _ _) => .error .notDirectory
  | none => .error .notFound

/-- One part further along a path. -/
def step (t : FileTree) (here : Place) (part : String) : Except OsError Place := do
  t.demandDirectory here
  if Path.isHere part then return here
  if part = ".." then return here.dropLast
  let place ← child here part
  if (t.get? place).isSome then return place else throw .notFound

/-- Along several parts. -/
def walk (t : FileTree) (here : Place) (parts : List String) : Except OsError Place :=
  parts.foldlM t.step here

/-- Where a path starts. -/
def origin (t : FileTree) (path : String) : Place := if Path.isAbsolute path then [] else t.home

/-- Refuse a text that is no path. -/
def checkPath (path : String) : Except OsError Unit :=
  if Path.hasZero path then .error .zeroByte
  else if path = "" then .error .notFound
  else if pathLimit < path.utf8ByteSize then .error .nameTooLong
  else .ok ()

/-- The place a path leads to. -/
def follow (t : FileTree) (path : String) : Except OsError Place := do
  checkPath path
  t.walk (t.origin path) (Path.split path)

/-- The entry a path leads to. -/
def lookup (t : FileTree) (path : String) : Except OsError Entry := do
  match t.get? (← t.follow path) with
  | some e => return e
  | none => throw .notFound

/-- The path leads to something. -/
def present (t : FileTree) (path : String) : Bool := (t.lookup path).isOk

/-- The path leads to a file. -/
def isFile (t : FileTree) (path : String) : Bool :=
  match t.lookup path with
  | .ok (.file _ _) => true
  | _ => false

/-- The path leads to a directory. -/
def isDirectory (t : FileTree) (path : String) : Bool :=
  match t.lookup path with
  | .ok .directory => true
  | _ => false

/-- The bytes of the file a path leads to. -/
def read (t : FileTree) (path : String) : Except OsError ByteArray := do
  match ← t.lookup path with
  | .file bytes _ => return bytes
  | .directory => throw .isDirectory

/-- The number of bytes of the file a path leads to. -/
def size (t : FileTree) (path : String) : Except OsError Nat := return (← t.read path).size

/-- The text of the file a path leads to. -/
def readText (t : FileTree) (path : String) : Except OsError String := do
  match String.fromUTF8? (← t.read path) with
  | some s => return s
  | none => throw .notText

/-! ## Files -/

/-- The directory in which a path names an entry, and what stands at its end. -/
def spot (t : FileTree) (path : String) : Except OsError (Place × Path.Last) := do
  checkPath path
  let (parts, last) := Path.last path
  let here ← t.walk (t.origin path) parts
  t.demandDirectory here
  return (here, last)

/-- The place at which a path lets a file be written. -/
def filePlace (t : FileTree) (path : String) : Except OsError Place := do
  match ← t.spot path with
  | (here, .name name) =>
      if Path.endsInSlash path then throw .isDirectory
      let place ← child here name
      if t.hasDirectory place then throw .isDirectory else return place
  | _ => throw .isDirectory

/-- Write a file, in place of one that is there. -/
def write (t : FileTree) (path : String) (bytes : ByteArray) : Except OsError FileTree := do
  return t.put (← t.filePlace path) (.file bytes)

def remove (t : FileTree) (path : String) : Except OsError FileTree := do
  match ← t.spot path with
  | (here, .name name) =>
      let place ← child here name
      match t.get? place with
      | some (.file _ _) =>
          if Path.endsInSlash path then throw .notDirectory else return t.erase place
      | some .directory => throw .isDirectory
      | none => throw .notFound
  | _ => throw .isDirectory

/-- Let the file at a place take the place that a path names. -/
def rename (t : FileTree) (source : Place) (path : String) : Except OsError FileTree := do
  if Path.hasZero path then throw .invalid
  match ← t.spot path with
  | (here, .name name) =>
      let place ← child here name
      if Path.endsInSlash path then throw .notDirectory
      match t.get? source with
      | none => throw .notFound
      | some e =>
          if t.hasDirectory place then throw .isDirectory
          else return (t.erase source).put place e
  | _ => throw .busy

/-! ## Files that are held open -/

/-- Hold a file open to write at its end.  It is made if it is not there. -/
def hold (t : FileTree) (path : String) : Except OsError FileTree := do
  let place ← t.filePlace path
  return t.put place (.file ((t.read path).toOption.getD ByteArray.empty) true)

/-- A file is held open. -/
def holds (t : FileTree) : Bool := t.entries.any fun (_, e) => e.held

/-- Write at the end of the file that is held open. -/
def append (t : FileTree) (bytes : ByteArray) : FileTree :=
  { t with entries := t.entries.map fun (p, e) => (p, e.append bytes) }

/-! ## Directories -/

/-- What became of a change that takes several steps, and the tree after it. -/
structure Change where
  /-- Whether all of it was done. -/
  result : Except OsError Unit
  /-- The tree. -/
  files : FileTree

def makeDirectory (t : FileTree) (path : String) : Except OsError FileTree := do
  match ← t.spot path with
  | (here, .name name) =>
      let place ← child here name
      if (t.get? place).isSome then throw .exists else return t.put place .directory
  | _ => throw .exists

/-- Make a directory, or see that it is there. -/
def ensureDirectory (t : FileTree) (path : String) : Change :=
  match t.makeDirectory path with
  | .ok t => ⟨.ok (), t⟩
  | .error e => ⟨if t.isDirectory path then .ok () else .error e, t⟩

/-- Make the first directory of a list.  If it has nothing to stand in, make
those after it first. -/
def ensureDirectories (t : FileTree) : List String → Change
  | [] => ⟨.ok (), t⟩
  | path :: paths =>
      match t.makeDirectory path with
      | .error .notFound =>
          let above := ensureDirectories t paths
          match above.result with
          | .ok () => above.files.ensureDirectory path
          | .error e => ⟨.error e, above.files⟩
      | _ => t.ensureDirectory path

/-- Make a directory and those above it. -/
def makeDirectories (t : FileTree) (path : String) : Change :=
  t.ensureDirectories (Path.ancestors path)

/-- Remove a directory that is empty. -/
def dropDirectory (t : FileTree) (path : String) : Except OsError FileTree := do
  match ← t.spot path with
  | (_, .root) => throw .busy
  | (_, .here) => throw .invalid
  | (_, .above) => throw .notEmpty
  | (here, .name name) =>
      let place ← child here name
      t.demandDirectory place
      if t.eraseBelow place = t then return t.erase place else throw .notEmpty

/-- Remove all that is in a directory, then the directory.  It does not matter
if it has gone by then. -/
def removeDirectory (t : FileTree) (path : String) : Change :=
  match t.follow path with
  | .error e => ⟨.error e, t⟩
  | .ok place =>
      match t.demandDirectory place with
      | .error e => ⟨.error e, t⟩
      | .ok () =>
          let t := t.eraseBelow place
          match t.dropDirectory path with
          | .ok t => ⟨.ok (), t⟩
          | .error .notFound => ⟨.ok (), t⟩
          | .error e => ⟨.error e, t⟩

/-! ## Replacing a file in one step -/

/-- The number of characters of the longest name in a list. -/
def longest : List String → Nat
  | [] => 0
  | n :: ns => max n.length (longest ns)

theorem length_le_longest {n : String} : ∀ {ns : List String}, n ∈ ns → n.length ≤ longest ns
  | m :: ms, h => by
      simp only [longest]
      cases h with
      | head => omega
      | tail _ h =>
          have := length_le_longest h
          omega

/-- All names that are in use. -/
def names (t : FileTree) : List String := t.home ++ t.entries.flatMap Prod.fst

/-- A name that is not in use. -/
def freshName (t : FileTree) : String := String.ofList ('.' :: List.replicate (longest t.names) 'x')

theorem freshName_notMem (t : FileTree) : t.freshName ∉ t.names := by
  intro h
  have := length_le_longest h
  simp only [freshName, String.length_ofList, List.length_cons, List.length_replicate] at this
  omega

/-- The step at which a replacement failed. -/
inductive ReplaceError where
  /-- The new file could not be made. -/
  | creating (e : OsError)
  /-- The new file could not take the place of the old. -/
  | replacing (e : OsError)
deriving DecidableEq, Repr

/-- What became of a replacement, and the tree after it. -/
structure Replaced where
  /-- Whether the file is in place. -/
  result : Except ReplaceError Unit
  /-- The tree. -/
  files : FileTree

/-- The path of the working directory. -/
def homePath (t : FileTree) : String := "/" ++ Path.ofParts t.home

/-- The directory in which a path's entry is made, where there must be room for
a path that starts at the root and ends in a name of so many characters. -/
def stagingPlace (t : FileTree) (path : String) (nameLength : Nat) : Except OsError Place := do
  let directory := Path.directory path
  checkPath (Path.join (Path.join t.homePath directory)
    (String.ofList (List.replicate nameLength 'x')))
  let here ← t.walk (t.origin directory) (Path.split directory)
  t.demandDirectory here
  return here

/-- Put a file at a path in one step.  While it is being written, the new file
has a name of so many characters. -/
def replace (t : FileTree) (path : String) (bytes : ByteArray) (nameLength : Nat) : Replaced :=
  match t.stagingPlace path nameLength with
  | .error e => ⟨.error (.creating e), t⟩
  | .ok here =>
      let source := here ++ [t.freshName]
      let staged := t.put source (.file bytes)
      match staged.rename source path with
      | .error e => ⟨.error (.replacing e), staged.erase source⟩
      | .ok files => ⟨.ok (), files⟩

/-- No entry is at a place with a fresh name. -/
theorem ne_freshName {t : FileTree} {p : Place} {e : Entry} (h : (p, e) ∈ t.entries)
    (here : Place) : p ≠ here ++ [t.freshName] := by
  intro hp
  refine freshName_notMem t ?_
  rw [names, List.mem_append, List.mem_flatMap]
  exact .inr ⟨(p, e), h, by simp [hp]⟩

theorem erase_freshName (t : FileTree) (here : Place) : t.erase (here ++ [t.freshName]) = t := by
  have : t.entries.filter (fun (q, _) => q != here ++ [t.freshName]) = t.entries :=
    List.filter_eq_self.mpr fun (q, e) h => by simpa using ne_freshName h here
  rw [erase, this]

theorem erase_put_freshName (t : FileTree) (here : Place) (e : Entry) :
    (t.put (here ++ [t.freshName]) e).erase (here ++ [t.freshName]) = t := by
  have h : (t.put (here ++ [t.freshName]) e).erase (here ++ [t.freshName])
      = (t.erase (here ++ [t.freshName])).erase (here ++ [t.freshName]) := by
    simp [put, erase]
  rw [h, erase_freshName, erase_freshName]

/-- A replacement that fails leaves the tree as it was. -/
theorem replace_of_error {t : FileTree} {path : String} {bytes : ByteArray} {nameLength : Nat}
    {e : ReplaceError} (h : (t.replace path bytes nameLength).result = .error e) :
    (t.replace path bytes nameLength).files = t := by
  unfold replace at h ⊢
  split
  · rfl
  · rename_i here hd
    simp only [hd] at h ⊢
    split
    · exact erase_put_freshName t here _
    · rename_i hr
      simp [hr] at h

end FileTree

end Scanout
