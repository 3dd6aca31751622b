import Scanout.Session

/-!
# What a session has done

The journal of a session mixes what was done to the world with lines for the
log.  The `deeds` of a session are its journal without those lines, so that each
operation adds one deed or none, and the views that ask for offers, questions or
records are views of the deeds (`Session.filterMap_journal`).

`Sink.Reaches` says which sinks and file trees come from others by the sink's
own doing.  Files that changed in no other way were not written by the run.
-/

namespace Scanout

/-! ## Deeds -/

/-- The event is a line for the log. -/
def Event.isNote : Event → Bool
  | noted _ => true
  | _ => false

/-- The frame that was offered, and whether it was taken. -/
def Event.offer? : Event → Option (Encoded × Except Error Unit)
  | offered frame result => some (frame, result)
  | _ => none

/-- The layout that was saved. -/
def Event.saved? : Event → Option Layout
  | saved layout => some layout
  | _ => none

/-- The event is a part of a choice: the operator was shown trials or asked a
question, or a layout was saved. -/
def Event.isChoosing : Event → Bool
  | presented _ => true
  | asked _ => true
  | saved _ => true
  | _ => false

theorem Event.offer?_of_isChoosing {e : Event} (h : e.isChoosing = true) : e.offer? = none := by
  cases e with
  | offered frame result => cases h
  | _ => rfl

theorem Event.isCleanUp_of_isChoosing {e : Event} (h : e.isChoosing = true) :
    e.isCleanUp = false := by
  cases e with
  | cleanedUp => cases h
  | _ => rfl

namespace Session

variable {σ : Type}

/-- What was done to the world, in order. -/
def deeds (s : Session σ) : List Event := s.journal.filter (! ·.isNote)

/-- The frames that were offered, and whether each was taken. -/
def offers (s : Session σ) : List (Encoded × Except Error Unit) := s.journal.filterMap Event.offer?

/-- The layouts that were saved. -/
def saves (s : Session σ) : List Layout := s.journal.filterMap Event.saved?

@[simp] theorem deeds_note (s : Session σ) (n : Note) : (s.note n).deeds = s.deeds := by
  rw [deeds, note, journal_record, List.filter_append]
  exact List.append_nil _

theorem deeds_record {s : Session σ} {e : Event} (h : e.isNote = false) :
    (s.record e).deeds = s.deeds ++ [e] := by
  rw [deeds, journal_record, List.filter_append, List.filter_cons_of_pos (by simp [h])]
  rfl

@[simp] theorem deeds_info (s : Session σ) (text : String) : (s.info text).deeds = s.deeds :=
  deeds_note s _

@[simp] theorem deeds_warn (s : Session σ) (text : String) : (s.warn text).deeds = s.deeds :=
  deeds_note s _

theorem deeds_offer [Sink σ] (s : Session σ) (frame : Encoded) :
    (s.offer frame).2.deeds = s.deeds ++ [.offered frame (s.offer frame).1] := by
  rw [deeds, journal_offer, List.filter_append]
  rfl

/-- Lines for the log change nothing but the log. -/
theorem notes_eq (s : Session σ) (ns : List Note) :
    (s.notes ns).deeds = s.deeds ∧ (s.notes ns).clock = s.clock ∧ (s.notes ns).files = s.files
      ∧ (s.notes ns).sink = s.sink ∧ (s.notes ns).answers = s.answers := by
  induction ns generalizing s with
  | nil => exact ⟨rfl, rfl, rfl, rfl, rfl⟩
  | cons n ns ih =>
      obtain ⟨hdeeds, hrest⟩ := ih (s.note n)
      exact ⟨hdeeds.trans (deeds_note s n), hrest⟩

theorem deeds_cleanUp [Sink σ] (s : Session σ) : s.cleanUp.deeds = s.deeds ++ [.cleanedUp] := by
  obtain ⟨hdeeds, -⟩ := notes_eq ({ s with
    files := (Sink.cleanUp s.sink s.files).files, sink := (Sink.cleanUp s.sink s.files).sink
    past := .cleanedUp :: s.past } : Session σ) (Sink.cleanUp s.sink s.files).notes
  rw [cleanUp, hdeeds, deeds, deeds, journal, journal, List.reverse_cons, List.filter_append]
  rfl

@[simp] theorem files_cleanUp [Sink σ] (s : Session σ) :
    s.cleanUp.files = (Sink.cleanUp s.sink s.files).files :=
  (notes_eq _ _).2.2.1

@[simp] theorem sink_cleanUp [Sink σ] (s : Session σ) :
    s.cleanUp.sink = (Sink.cleanUp s.sink s.files).sink :=
  (notes_eq _ _).2.2.2.1

@[simp] theorem clock_cleanUp [Sink σ] (s : Session σ) : s.cleanUp.clock = s.clock :=
  (notes_eq _ _).2.1

@[simp] theorem answers_cleanUp [Sink σ] (s : Session σ) : s.cleanUp.answers = s.answers :=
  (notes_eq _ _).2.2.2.2

/-! ## Views of the deeds -/

/-- A view that does not ask for lines of the log is a view of the deeds. -/
theorem filterMap_journal (s : Session σ) {α : Type} {view : Event → Option α}
    (h : ∀ n, view (.noted n) = none) :
    s.journal.filterMap view = s.deeds.filterMap view := by
  rw [deeds]
  induction s.journal with
  | nil => rfl
  | cons e es ih =>
      cases e with
      | noted n =>
          rw [List.filterMap_cons_none (h n), ih, List.filter_cons_of_neg (by simp [Event.isNote])]
      | _ => rw [List.filter_cons_of_pos rfl, List.filterMap_cons, List.filterMap_cons, ih]

/-- New deeds that a view does not ask for leave it as it is. -/
theorem filterMap_journal_of_deeds {s s' : Session σ} {new : List Event}
    (h : s'.deeds = s.deeds ++ new) {α : Type} {view : Event → Option α}
    (hnote : ∀ n, view (.noted n) = none) (hnew : ∀ e ∈ new, view e = none) :
    s'.journal.filterMap view = s.journal.filterMap view := by
  rw [s'.filterMap_journal hnote, s.filterMap_journal hnote, h, List.filterMap_append,
    List.filterMap_eq_nil_iff.mpr hnew, List.append_nil]

theorem offers_eq (s : Session σ) : s.offers = s.deeds.filterMap Event.offer? :=
  s.filterMap_journal fun _ => rfl

theorem offers_info (s : Session σ) (text : String) : (s.info text).offers = s.offers := by
  rw [offers_eq, offers_eq, deeds_info]

theorem offers_cleanUp [Sink σ] (s : Session σ) : s.cleanUp.offers = s.offers := by
  rw [offers_eq, offers_eq, deeds_cleanUp, List.filterMap_append]
  exact List.append_nil _

end Session

/-! ## What a sink does on its own -/

/-- A sink and a file tree after deliveries and clean-ups alone. -/
inductive Sink.Reaches {σ : Type} [Sink σ] (k : σ) (t : FileTree) : σ → FileTree → Prop where
  | refl : Reaches k t k t
  | deliver {k' t'} (frame : Encoded) : Reaches k t k' t' →
      Reaches k t (Sink.deliver k' t' frame).sink (Sink.deliver k' t' frame).files
  | cleanUp {k' t'} : Reaches k t k' t' →
      Reaches k t (Sink.cleanUp k' t').sink (Sink.cleanUp k' t').files

theorem Sink.Reaches.trans {σ : Type} [Sink σ] {k k' k'' : σ} {t t' t'' : FileTree}
    (h : Reaches k t k' t') (h' : Reaches k' t' k'' t'') : Reaches k t k'' t'' := by
  induction h' with
  | refl => exact h
  | deliver frame _ ih => exact .deliver frame ih
  | cleanUp _ ih => exact .cleanUp ih

/-- An offer is a delivery. -/
theorem Session.reaches_offer {σ : Type} [Sink σ] {s t : Session σ} {frame : Encoded}
    {result : Except Error Unit} (h : s.offer frame = (result, t)) :
    Sink.Reaches s.sink s.files t.sink t.files := by
  have ht := congrArg Prod.snd h
  subst ht
  exact .deliver frame .refl

/-- What deliveries and clean-ups preserve is as it was. -/
theorem Sink.Reaches.keeps {σ : Type} [Sink σ] {k k' : σ} {t t' : FileTree} (h : Reaches k t k' t')
    {α : Type} {view : FileTree → α}
    (hdeliver : ∀ (k : σ) t frame, view (Sink.deliver k t frame).files = view t)
    (hcleanUp : ∀ (k : σ) t, view (Sink.cleanUp k t).files = view t) : view t' = view t := by
  induction h with
  | refl => rfl
  | deliver frame _ ih => rw [hdeliver, ih]
  | cleanUp _ ih => rw [hcleanUp, ih]

end Scanout
