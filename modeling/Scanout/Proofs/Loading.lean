import Scanout.CommandLine.Run
import Scanout.Proofs.Calibration

/-!
# Loading always yields a usable layout

Anything may stand in the place of a record: nothing, a directory, bytes that
are no text, any document.  A layout is read only if a record says it and it
passes the check (`Store.tryLoad_eq_some_iff`), and there is no record only if
nothing is found at its path (`Store.tryLoad_eq_none_iff`).  In all other cases
the standard layout stands in, which passes the check too.

That loading changes no files is said of those who load: `Settings.layout` and
`basesOf` take a session and yield the one after it.
-/

namespace Scanout

namespace Record

theorem parse_eq_ok_iff {text : String} {l : Layout} :
    parse text = .ok l ↔ ∃ r, read? text = some r ∧ r.Says l ∧ l.check = .ok () := by
  unfold parse
  cases read? text with
  | none => exact ⟨fun h => (nomatch h), fun ⟨r, h, _⟩ => nomatch h⟩
  | some r => simp [layout_eq_ok_iff]

end Record

/-! ## Reading files -/

namespace FileTree

variable {t : FileTree} {path : String}

/-- No text is found where no bytes are found. -/
theorem readText_eq_notFound_iff :
    t.readText path = .error .notFound ↔ t.read path = .error .notFound := by
  unfold readText
  constructor
  · intro h
    cases hread : t.read path with
    | error e =>
        rw [hread] at h
        cases h
        rfl
    | ok bytes =>
        rw [hread] at h
        dsimp only [bind, Except.bind] at h
        split at h
        · cases h
        · cases h
  · intro h
    rw [h]
    rfl

theorem readText_eq_ok_iff {text : String} :
    t.readText path = .ok text
      ↔ ∃ bytes, t.read path = .ok bytes ∧ String.fromUTF8? bytes = some text := by
  unfold readText
  rw [bind_eq_ok]
  refine exists_congr fun bytes => and_congr_right fun _ => ?_
  cases String.fromUTF8? bytes with
  | none => exact ⟨fun h => (nomatch h), fun h => nomatch h⟩
  | some s =>
      exact ⟨fun h => congrArg some (Except.ok.inj h),
        fun h => congrArg Except.ok (Option.some.inj h)⟩

end FileTree

/-! ## Loading from a store -/

namespace Store

variable {s : Store} {t : FileTree} {l : Layout}

/-- There is no record if and only if nothing is found at its path. -/
theorem tryLoad_eq_none_iff : s.tryLoad t = .ok none ↔ t.read s.path = .error .notFound := by
  rw [← FileTree.readText_eq_notFound_iff]
  unfold tryLoad
  cases t.readText s.path with
  | error e =>
      cases e with
      | notFound => exact ⟨fun _ => rfl, fun _ => rfl⟩
      | _ => exact ⟨fun h => (nomatch h), fun h => nomatch h⟩
  | ok text =>
      refine ⟨fun h => ?_, fun h => nomatch h⟩
      dsimp only at h
      cases hparse : Record.parse text with
      | error e =>
          rw [hparse] at h
          cases h
      | ok l =>
          rw [hparse] at h
          cases h

/-- A layout is read if and only if the file is a text, the text is a record,
and the record says a layout that passes the check. -/
theorem tryLoad_eq_some_iff :
    s.tryLoad t = .ok (some l)
      ↔ ∃ bytes text r, t.read s.path = .ok bytes ∧ String.fromUTF8? bytes = some text
          ∧ Record.read? text = some r ∧ r.Says l ∧ l.check = .ok () := by
  have hparse : s.tryLoad t = .ok (some l)
      ↔ ∃ text, t.readText s.path = .ok text ∧ Record.parse text = .ok l := by
    unfold tryLoad
    cases t.readText s.path with
    | error e =>
        refine ⟨fun h => ?_, fun ⟨_, h, _⟩ => nomatch h⟩
        cases e with
        | _ => cases h
    | ok text =>
        cases hlayout : Record.parse text with
        | error e => simp [hlayout, Except.map]
        | ok l' => simp [hlayout, Except.map]
  rw [hparse]
  simp only [FileTree.readText_eq_ok_iff, Record.parse_eq_ok_iff]
  constructor
  · rintro ⟨text, ⟨bytes, hread, htext⟩, r, hrecord⟩
    exact ⟨bytes, text, r, hread, htext, hrecord⟩
  · rintro ⟨bytes, text, r, hread, htext, hrecord⟩
    exact ⟨text, ⟨bytes, hread, htext⟩, r, hrecord⟩

/-- What is loaded is what was read, or the standard layout if there is no
record or it is in fault. -/
theorem load_eq_iff : s.load t = l ↔ s.tryLoad t = .ok (some l)
    ∨ l = .standard ∧ (s.tryLoad t = .ok none ∨ ∃ e, s.tryLoad t = .error e) := by
  unfold load
  rcases s.tryLoad t with e | _ | l'
  · simp [eq_comm]
  · simp [eq_comm]
  · simp

theorem check_load (s : Store) (t : FileTree) : (s.load t).check = .ok () := by
  rcases load_eq_iff.mp (rfl : s.load t = s.load t) with hread | ⟨hstandard, -⟩
  · obtain ⟨-, -, -, -, -, -, -, hcheck⟩ := tryLoad_eq_some_iff.mp hread
    exact hcheck
  · rw [hstandard]
    decide

end Store

/-! ## Loading in a session -/

namespace CommandLine

variable {σ : Type}

/-- To load a layout and to tell the log about it does nothing to the world. -/
theorem Settings.layout_keeps (c : Settings) (u : Session σ) :
    (c.layout u).2.files = u.files ∧ (c.layout u).2.deeds = u.deeds := by
  obtain ⟨hdeeds, -, hfiles, -, -⟩ := u.notes_eq (c.store.loadNotes u.currentFiles)
  exact ⟨hfiles, hdeeds⟩

theorem basesOf_keeps (c : Settings) (u : Session σ) :
    (basesOf c u).2.files = u.files ∧ (basesOf c u).2.deeds = u.deeds := by
  unfold basesOf
  split
  · exact ⟨rfl, rfl⟩
  · exact ⟨rfl, rfl⟩
  · exact ⟨rfl, Session.deeds_warn u _⟩

/-- Whatever stands at the path of a record, the layout that is loaded passes
the check, and a pipeline can be made of it.  It is the one that was read, or
the standard layout if none was.  There is no record if and only if nothing is
found there.  Those who load leave the files as they are. -/
theorem load_usable (c : Settings) (u : Session σ) (t : FileTree) (filter : Resampler)
    (offset : Offset) :
    (c.store.load t).check = .ok ()
      ∧ (∃ p, Pipeline.make (c.store.load t) filter offset = .ok p ∧ p.layout = c.store.load t)
      ∧ (∀ l, c.store.load t = l ↔ c.store.tryLoad t = .ok (some l)
          ∨ l = .standard ∧ (c.store.tryLoad t = .ok none ∨ ∃ e, c.store.tryLoad t = .error e))
      ∧ (c.store.tryLoad t = .ok none ↔ t.read c.store.path = .error .notFound)
      ∧ (c.layout u).1 = c.store.load u.currentFiles
      ∧ ((c.layout u).2.files = u.files ∧ (c.layout u).2.deeds = u.deeds)
      ∧ (basesOf c u).2.files = u.files ∧ (basesOf c u).2.deeds = u.deeds := by
  have hcheck := c.store.check_load t
  refine ⟨hcheck, ⟨_, Pipeline.make_eq_ok filter offset hcheck, rfl⟩, fun _ => Store.load_eq_iff,
    Store.tryLoad_eq_none_iff, rfl, c.layout_keeps u, basesOf_keeps c u⟩

end CommandLine

end Scanout
