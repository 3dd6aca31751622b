import Scanout.Files.Tree
import Scanout.Journal
import Scanout.Record

/-!
# Layout stores

A `Store` keeps the confirmed layout in a record file.  `tryLoad` tells apart no
record, a record in fault and a layout; `load` falls back to the standard
layout.  `save` checks a layout and replaces the record in one step, so a record
is never half written and a failed save changes nothing (`save_of_error`).
-/

namespace Scanout

/-- A place for the confirmed layout. -/
structure Store where
  /-- The path of the record file. -/
  path : String := "gm12u320_best.json"
deriving DecidableEq, Repr

namespace Store

/-- The layout in the record file, or none if there is no such file. -/
def tryLoad (s : Store) (t : FileTree) : Except Error (Option Layout) :=
  match t.readText s.path with
  | .error .notFound => .ok none
  | .error e => .error (.io "reading config record" e.message)
  | .ok text => (Record.parse text).map some

/-- The layout in the record file, or the standard layout if there is none. -/
def load (s : Store) (t : FileTree) : Layout :=
  match s.tryLoad t with
  | .ok (some l) => l
  | _ => .standard

/-- What the log says about a layout being loaded. -/
def loadNotes (s : Store) (t : FileTree) : List Note :=
  match s.tryLoad t with
  | .ok (some l) => [⟨.info, "Loaded encoding config from " ++ s.path ++ ": " ++ l.text⟩]
  | .ok none => []
  | .error e => [⟨.warn, "Ignoring config record " ++ s.path ++ ": " ++ e.message⟩]

/-- What became of a layout being saved, and the tree after it. -/
structure Saved where
  /-- Whether the record holds the layout. -/
  result : Except Error Unit
  /-- The tree. -/
  files : FileTree

/-- The error of a record that could not be replaced. -/
def replaceError : FileTree.ReplaceError → Error
  | .creating e => .io "creating config temp file" e.message
  | .replacing e => .io "replacing config record" e.message

/-- How long the name of the record is while it is being written: `.tmp` and six
characters. -/
def stagedNameLength : Nat := 10

/-- Put the record of a layout into the file. -/
def save (s : Store) (t : FileTree) (l : Layout) : Saved :=
  match l.check with
  | .error e => ⟨.error e, t⟩
  | .ok () =>
      let replaced := t.replace s.path (Record.write l).toUTF8 stagedNameLength
      match replaced.result with
      | .error e => ⟨.error (replaceError e), replaced.files⟩
      | .ok () => ⟨.ok (), replaced.files⟩

/-- What the log says about a layout that was saved. -/
def saveNote (s : Store) (l : Layout) : Note :=
  ⟨.info, "Saved best config to " ++ s.path ++ ": " ++ l.text⟩

/-- A save that fails leaves the tree as it was. -/
theorem save_of_error {s : Store} {t : FileTree} {l : Layout} {e : Error}
    (h : (s.save t l).result = .error e) : (s.save t l).files = t := by
  unfold save at h ⊢
  cases hc : l.check with
  | error f => rfl
  | ok u =>
      simp only [hc] at h ⊢
      cases hr : (t.replace s.path (Record.write l).toUTF8 stagedNameLength).result with
      | error f =>
          dsimp only
          exact FileTree.replace_of_error hr
      | ok v =>
          simp only [hr] at h
          cases h

end Store

end Scanout
