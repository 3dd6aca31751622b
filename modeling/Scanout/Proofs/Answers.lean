import Mathlib.Data.List.TakeWhile
import Scanout.Proofs.Choosing

/-!
# What the operator answers

An answer names a trial when it is a numeral with white space around it, and a
trial of that number was delivered (`Sweep.Names`); reading an answer finds
exactly that (`Sweep.named?_eq_some_iff`).  An answer that names no trial is a
miss, and misses are all that asking goes on after.

So the first of the first three answers that is no miss settles the choice,
whatever stands behind it: a number is picked, an error is passed on.  If there
is none, because three answers missed or because the operator has gone, nothing
is chosen.  `Sweep.choose_eq` says this for any number of questions, with how
many are asked; `Sweep.choose_settles` says for each outcome which answers lead
to it.
-/

namespace Scanout

/-! ## Numerals with white space around them -/

namespace Text

variable {cs before after : List Char} {limit n : Nat}

/-- The text is a decimal numeral with white space around it.  The numeral is
one or more digits with this value, maybe after a plus sign. -/
def Writes (cs : List Char) (n : Nat) : Prop :=
  ∃ before sign digits after, cs = before ++ (sign ++ digits) ++ after
    ∧ (∀ c ∈ before, isBlank c = true) ∧ (∀ c ∈ after, isBlank c = true)
    ∧ (sign = [] ∨ sign = ['+']) ∧ digits ≠ []
    ∧ (∀ c ∈ digits, isDigit c = true) ∧ digitsValue digits = n

theorem isBlank_of_isDigit {c : Char} (h : isDigit c = true) : isBlank c = false := by
  simp only [isDigit, Bool.and_eq_true, decide_eq_true_eq, Char.le_def, UInt32.le_iff_toNat_le] at h
  have hlow : 48 ≤ c.val.toNat := h.1
  have hhigh : c.val.toNat ≤ 57 := h.2
  simp only [isBlank, Bool.or_eq_false_iff, Bool.and_eq_false_iff, decide_eq_false_iff_not,
    beq_eq_false_iff_ne, ne_eq, UInt32.le_iff_toNat_le, ← UInt32.toNat_inj, UInt32.reduceToNat]
  omega

/-- What is left out at the ends of a text is white space. -/
theorem exists_blanks (cs : List Char) :
    ∃ before after, cs = before ++ trim cs ++ after ∧ (∀ c ∈ before, isBlank c = true)
      ∧ ∀ c ∈ after, isBlank c = true := by
  refine ⟨cs.takeWhile isBlank, ((trimLeft cs).reverse.takeWhile isBlank).reverse, ?_, ?_, ?_⟩
  · rw [trim, trimRight, List.append_assoc, ← List.reverse_append, List.takeWhile_append_dropWhile,
      List.reverse_reverse, trimLeft, List.takeWhile_append_dropWhile]
  · exact fun c hc => List.mem_takeWhile_imp hc
  · exact fun c hc => List.mem_takeWhile_imp (List.mem_reverse.mp hc)

theorem trim_blanks_append (h : ∀ c ∈ before, isBlank c = true) :
    trim (before ++ cs) = trim cs := by
  rw [trim, trim, trimLeft, trimLeft, List.dropWhile_append_of_pos h]

theorem trim_append_blanks (h : ∀ c ∈ after, isBlank c = true) : trim (cs ++ after) = trim cs := by
  have hright : ∀ ds, trimRight (ds ++ after) = trimRight ds := by
    intro ds
    rw [trimRight, trimRight, List.reverse_append,
      List.dropWhile_append_of_pos fun c hc => h c (List.mem_reverse.mp hc)]
  rw [trim, trim, trimLeft, trimLeft, List.dropWhile_append]
  split
  · rename_i hempty
    rw [List.isEmpty_iff.mp hempty, List.dropWhile_eq_nil_iff.mpr h]
  · exact hright _

/-- White space around a text without any is left out, and nothing else. -/
theorem trim_eq_of_blanks (hbefore : ∀ c ∈ before, isBlank c = true)
    (hafter : ∀ c ∈ after, isBlank c = true)
    (hcs : ∀ c ∈ cs, isBlank c = false) : trim (before ++ cs ++ after) = cs := by
  rw [trim_append_blanks hafter, trim_blanks_append hbefore]
  exact trim_eq_self (fun c hc => hcs c (List.mem_of_mem_head? hc)) fun c hc =>
    hcs c (List.mem_of_mem_getLast? hc)

theorem exists_sign (cs : List Char) :
    ∃ sign, cs = sign ++ dropPlus cs ∧ (sign = [] ∨ sign = ['+']) := by
  unfold dropPlus
  split
  · exact ⟨['+'], rfl, .inr rfl⟩
  · exact ⟨[], rfl, .inl rfl⟩

theorem readDigits_eq_some_iff :
    readDigits cs = some n ↔ cs ≠ [] ∧ (∀ c ∈ cs, isDigit c = true) ∧ digitsValue cs = n := by
  rw [readDigits, ← List.all_eq_true]
  split
  · rename_i h
    rw [Option.some.injEq]
    exact ⟨fun hn => ⟨h.1, h.2, hn⟩, fun hn => hn.2.2⟩
  · rename_i h
    exact ⟨fun hn => (nomatch hn), fun hn => absurd ⟨hn.1, hn.2.1⟩ h⟩

/-- A text is read as the number that it writes, if that stays below the limit. -/
theorem readNumeral_trim_eq_some_iff :
    readNumeral limit (trim cs) = some n ↔ Writes cs n ∧ n < limit := by
  rw [readNumeral, Option.filter_eq_some_iff, decide_eq_true_iff]
  refine and_congr_left fun _ => ⟨fun h => ?_, ?_⟩
  · obtain ⟨hne, hdigits, hvalue⟩ := readDigits_eq_some_iff.mp h
    obtain ⟨before, after, hcs, hbefore, hafter⟩ := exists_blanks cs
    obtain ⟨sign, hsplit, hsign⟩ := exists_sign (trim cs)
    exact ⟨before, sign, dropPlus (trim cs), after, hsplit ▸ hcs, hbefore, hafter, hsign, hne,
      hdigits, hvalue⟩
  · rintro ⟨before, sign, digits, after, rfl, hbefore, hafter, hsign, hne, hdigits, hvalue⟩
    have hnumeral : ∀ c ∈ sign ++ digits, isBlank c = false := by
      intro c hc
      obtain hc | hc := List.mem_append.mp hc
      · obtain rfl | rfl := hsign
        · cases hc
        · rw [List.mem_singleton.mp hc]
          rfl
      · exact isBlank_of_isDigit (hdigits c hc)
    have hdrop : dropPlus (sign ++ digits) = digits := by
      obtain rfl | rfl := hsign
      · cases digits with
        | nil => rfl
        | cons d ds =>
            have hd : d ≠ '+' := by
              rintro rfl
              cases hdigits '+' List.mem_cons_self
            simp [dropPlus, hd]
      · rfl
    rw [trim_eq_of_blanks hbefore hafter hnumeral, hdrop]
    exact readDigits_eq_some_iff.mpr ⟨hne, hdigits, hvalue⟩

end Text

namespace Sweep

variable {σ : Type} {trials : List Trial} {text : String} {index : Nat}

/-! ## One answer -/

/-- The answer names a trial: white space around it left aside it is a 64-bit
number, and it is that of a trial that was delivered. -/
def Names (trials : List Trial) (text : String) (index : Nat) : Prop :=
  Text.Writes text.toList index ∧ index < wordLimit ∧ ∃ t ∈ trials, t.index = index
    ∧ t.delivered = true

/-- The answer is a line that names no trial. -/
def Misses (trials : List Trial) (a : Answer) : Prop :=
  ∃ text, a = .line text ∧ ∀ index, ¬ Names trials text index

/-- Reading an answer finds the trial that it names. -/
theorem named?_eq_some_iff : named? trials text = some index ↔ Names trials text index := by
  unfold named?
  rw [Names, ← Trial.isSome_selectByIndex_iff, ← and_assoc, ← Text.readNumeral_trim_eq_some_iff]
  cases Text.readNumeral wordLimit (Text.trim text.toList) with
  | none => simp
  | some n =>
      dsimp only
      split
      · rename_i h
        constructor
        · intro heq
          cases heq
          exact ⟨rfl, h⟩
        · exact fun hn => hn.1
      · rename_i h
        constructor
        · intro heq
          cases heq
        · rintro ⟨heq, hsome⟩
          cases heq
          exact absurd hsome h

/-- An answer after which asking goes on. -/
def misses (trials : List Trial) : Answer → Bool
  | .line text => (named? trials text).isNone
  | _ => false

theorem misses_iff {a : Answer} : misses trials a = true ↔ Misses trials a := by
  cases a with
  | line text =>
      rw [misses, Option.isNone_iff_eq_none, Option.eq_none_iff_forall_ne_some]
      simp [Misses, named?_eq_some_iff]
  | silence => simp [misses, Misses]
  | failure e => simp [misses, Misses]

/-! ## Several questions -/

/-- How a choice ends that one answer settles, or none. -/
def settled (trials : List Trial) : Option Answer → Outcome Choice
  | some (.line text) => match named? trials text with
      | some index => .ok (.picked index)
      | none => .ok .gaveUp
  | some (.failure e) => .error (.error e)
  | some .silence => .error .stalled
  | none => .ok .gaveUp

section Uninterrupted

variable {s : Session σ} {rest : List Answer} {a : Answer}

/-- A miss is stepped over, and the next question is asked. -/
theorem choose_of_misses (left : Nat) (hclock : s.clock.stopAt = none)
    (hanswers : s.answers = a :: rest) (ha : misses trials a = true) :
    ∃ line, choose trials (left + 1) s
      = choose trials left (({ s.record (.asked question) with answers := rest } : Session σ).warn
        line) := by
  cases a with
  | line text =>
      have hnamed : named? trials text = none := Option.isNone_iff_eq_none.mp ha
      refine ⟨misnamed text (maxQuestions - left), ?_⟩
      rw [choose]
      simp only [Session.record, hanswers, Clock.race_of_stopAt_eq_none hclock, Clock.advance_zero,
        hnamed]
  | silence => cases ha
  | failure e => cases ha

/-- What is no miss settles the choice. -/
theorem choose_of_not_misses (left : Nat) (hclock : s.clock.stopAt = none)
    (hanswers : s.answers = a :: rest) (ha : misses trials a = false) :
    (choose trials (left + 1) s).1 = settled trials (some a)
      ∧ (choose trials (left + 1) s).2.deeds = s.deeds ++ [.asked question]
      ∧ ((choose trials (left + 1) s).1 ≠ .error .stalled →
        (choose trials (left + 1) s).2.answers = rest) := by
  have hdeeds : (s.record (.asked question)).deeds = s.deeds ++ [.asked question] :=
    Session.deeds_record rfl
  cases a with
  | line text =>
      obtain ⟨index, hnamed⟩ := Option.isSome_iff_exists.mp (Option.isNone_eq_false_iff.mp ha)
      have hstep : choose trials (left + 1) s
          = (.ok (.picked index), { s.record (.asked question) with answers := rest }) := by
        rw [choose]
        simp only [Session.record, hanswers, Clock.race_of_stopAt_eq_none hclock,
          Clock.advance_zero, hnamed]
      rw [hstep, settled, hnamed]
      exact ⟨rfl, hdeeds, fun _ => rfl⟩
  | silence =>
      have hrace : s.clock.race none = .stalled := by
        unfold Clock.race
        rw [hclock]
      have hstep : choose trials (left + 1) s = (.error .stalled, s.record (.asked question)) := by
        rw [choose]
        simp only [Session.record, hanswers, Clock.race_of_stopAt_eq_none hclock,
          Clock.advance_zero, hrace]
      rw [hstep]
      exact ⟨rfl, hdeeds, fun h => absurd rfl h⟩
  | failure e =>
      have hstep : choose trials (left + 1) s
          = (.error (.error e), { s.record (.asked question) with answers := rest }) := by
        rw [choose]
        simp only [Session.record, hanswers, Clock.race_of_stopAt_eq_none hclock,
          Clock.advance_zero]
      rw [hstep]
      exact ⟨rfl, hdeeds, fun _ => rfl⟩

/-- When the operator has gone, nothing is chosen. -/
theorem choose_of_closed (trials : List Trial) (left : Nat) (hclock : s.clock.stopAt = none)
    (hanswers : s.answers = []) :
    (choose trials (left + 1) s).1 = .ok .gaveUp
      ∧ (choose trials (left + 1) s).2.deeds = s.deeds ++ [.asked question]
      ∧ (choose trials (left + 1) s).2.answers = [] := by
  have hstep : choose trials (left + 1) s
      = (.ok .gaveUp, (s.record (.asked question)).warn "Operator input closed") := by
    rw [choose]
    simp only [Session.record, hanswers, Clock.race_of_stopAt_eq_none hclock, Clock.advance_zero]
  rw [hstep]
  exact ⟨rfl, (Session.deeds_warn _ _).trans (Session.deeds_record rfl), hanswers⟩

/-- The first answer that is no miss settles the choice, and no question is
asked after it. -/
theorem choose_eq (trials : List Trial) (left : Nat) (s : Session σ)
    (hclock : s.clock.stopAt = none) :
    (choose trials left s).1
      = settled trials ((s.answers.take left).find? fun a => !misses trials a)
      ∧ (choose trials left s).2.deeds
        = s.deeds ++ List.replicate
            (min ((s.answers.takeWhile (misses trials)).length + 1) left) (.asked question)
      ∧ ((choose trials left s).1 ≠ .error .stalled →
        (choose trials left s).2.answers
          = s.answers.drop (min ((s.answers.takeWhile (misses trials)).length + 1) left)) := by
  induction left generalizing s with
  | zero => simp [choose, settled]
  | succ left ih =>
      cases hanswers : s.answers with
      | nil =>
          obtain ⟨hresult, hdeeds, hleft⟩ := choose_of_closed trials left hclock hanswers
          exact ⟨hresult, by simpa using hdeeds, fun _ => by simpa using hleft⟩
      | cons a rest =>
          cases ha : misses trials a with
          | false =>
              obtain ⟨hresult, hdeeds, hleft⟩ := choose_of_not_misses left hclock hanswers ha
              exact ⟨by simpa [ha] using hresult, by simpa [ha] using hdeeds,
                fun h => by simpa [ha] using hleft h⟩
          | true =>
              obtain ⟨line, hstep⟩ := choose_of_misses left hclock hanswers ha
              let next :=
                ({ s.record (.asked question) with answers := rest } : Session σ).warn line
              have hasked : next.deeds = s.deeds ++ [.asked question] :=
                (Session.deeds_warn _ _).trans (Session.deeds_record rfl)
              obtain ⟨hresult, hdeeds, hleft⟩ := ih next hclock
              have hcount : min (((a :: rest).takeWhile (misses trials)).length + 1) (left + 1)
                  = min ((rest.takeWhile (misses trials)).length + 1) left + 1 := by
                rw [List.takeWhile_cons_of_pos ha, List.length_cons, Nat.succ_min_succ]
              rw [hstep, hcount]
              refine ⟨hresult.trans ?_, hdeeds.trans ?_, hleft⟩
              · rw [List.take_succ_cons, List.find?_cons_of_neg (by simp [ha])]
                rfl
              · rw [hasked, List.append_assoc, List.replicate_succ]
                rfl

end Uninterrupted

/-! ## The answers behind each outcome -/

section Outcomes

variable {answers : List Answer} {a : Answer} {result : Outcome Choice}

theorem settled_some_eq_picked_iff :
    settled trials (some a) = .ok (.picked index) ↔ ∃ text, a = .line text
      ∧ Names trials text index := by
  cases a with
  | line text =>
      simp only [settled, Answer.line.injEq, exists_eq_left', ← named?_eq_some_iff]
      cases named? trials text <;> simp
  | silence => simp [settled]
  | failure e => simp [settled]

theorem settled_some_eq_error_iff {e : Error} :
    settled trials (some a) = .error (.error e) ↔ a = .failure e := by
  cases a with
  | line text => cases hnamed : named? trials text <;> simp [settled, hnamed]
  | silence => simp [settled]
  | failure e' => simp [settled]

theorem settled_some_eq_stalled_iff : settled trials (some a) = .error .stalled ↔ a = .silence := by
  cases a with
  | line text => cases hnamed : named? trials text <;> simp [settled, hnamed]
  | silence => simp [settled]
  | failure e => simp [settled]

/-- Only a miss leaves the choice open. -/
theorem settled_some_eq_gaveUp_iff :
    settled trials (some a) = .ok .gaveUp ↔ misses trials a = true := by
  cases a with
  | line text => cases hnamed : named? trials text <;> simp [settled, misses, hnamed]
  | silence => simp [settled, misses]
  | failure e => simp [settled, misses]

theorem settled_find?_eq_gaveUp_iff :
    settled trials (answers.find? fun a => !misses trials a) = .ok .gaveUp
    ↔ ∀ a ∈ answers, Misses trials a := by
  simp only [← misses_iff]
  cases hfind : answers.find? fun a => !misses trials a with
  | none => simpa [settled] using hfind
  | some a =>
      have ha : misses trials a = false := by simpa using List.find?_some hfind
      rw [settled_some_eq_gaveUp_iff]
      exact ⟨fun h => absurd h (ha ▸ Bool.false_ne_true), fun h =>
        h a (List.mem_of_find?_eq_some hfind)⟩

/-- Any other outcome has one answer behind it, and misses before that. -/
theorem settled_find?_eq_iff (hresult : result ≠ .ok .gaveUp) :
    settled trials (answers.find? fun a => !misses trials a) = result ↔ ∃ missed a later,
      answers = missed ++ a :: later ∧ (∀ b ∈ missed, Misses trials b)
        ∧ settled trials (some a) = result := by
  simp only [← misses_iff]
  constructor
  · intro h
    cases hfind : answers.find? fun a => !misses trials a with
    | none => exact absurd (h.symm.trans (congrArg _ hfind)) hresult
    | some a =>
        obtain ⟨-, missed, later, hsplit, hmissed⟩ := List.find?_eq_some_iff_append.mp hfind
        exact ⟨missed, a, later, hsplit, by simpa using hmissed, hfind ▸ h⟩
  · rintro ⟨missed, a, later, hsplit, hmissed, ha⟩
    have hno : ¬ misses trials a = true :=
      fun h => hresult (ha.symm.trans (settled_some_eq_gaveUp_iff.mpr h))
    have hfind : answers.find? (fun a => !misses trials a) = some a :=
      List.find?_eq_some_iff_append.mpr
        ⟨by simpa using hno, missed, later, hsplit, by simpa using hmissed⟩
    rw [hfind, ha]

/-- An outcome that only one answer leads to. -/
theorem settled_find?_eq_iff_of_unique (hresult : result ≠ .ok .gaveUp)
    (hunique : ∀ b, settled trials (some b) = result ↔ b = a) :
    settled trials (answers.find? fun a => !misses trials a) = result ↔ ∃ missed later,
      answers = missed ++ a :: later ∧ ∀ b ∈ missed, Misses trials b := by
  rw [settled_find?_eq_iff hresult]
  constructor
  · rintro ⟨missed, b, later, hsplit, hmissed, hb⟩
    exact ⟨missed, later, (hunique b).mp hb ▸ hsplit, hmissed⟩
  · rintro ⟨missed, later, hsplit, hmissed⟩
    exact ⟨missed, a, later, hsplit, hmissed, (hunique a).mpr rfl⟩

theorem misses_of_mem_take {n : Nat} (hn : n ≤ (answers.takeWhile (misses trials)).length)
    (ha : a ∈ answers.take n) :
    Misses trials a := by
  rw [← List.takeWhile_append_dropWhile (p := misses trials) (l := answers),
    List.take_append_of_le_length hn] at ha
  exact misses_iff.mp (List.mem_takeWhile_imp (List.mem_of_mem_take ha))

/-- What stands first after all that misses is no miss. -/
theorem not_misses_of_getElem?
    (ha : answers[(answers.takeWhile (misses trials)).length]? = some a) :
    ¬ Misses trials a := by
  have hfind : answers.find? (fun a => !misses trials a) = some a := by
    calc answers.find? (fun a => !misses trials a)
      _ = (answers.dropWhile (misses trials)).head? := List.find?_not_eq_head?_dropWhile ..
      _ = (answers.takeWhile (misses trials)
          ++ answers.dropWhile (misses trials))[(answers.takeWhile (misses trials)).length]? := by
        rw [List.getElem?_append_right (Nat.le_refl _), Nat.sub_self, List.head?_eq_getElem?]
      _ = some a := by rw [List.takeWhile_append_dropWhile, ha]
  rw [← misses_iff]
  simpa using List.find?_some hfind

end Outcomes

/-- As long as nothing is to stop, the first three answers decide, whatever they
are.  A number is picked if it is that of a delivered trial and all answers
before it are lines that name none; an error is passed on if all answers before
it are such lines; and nothing is chosen if none but such lines came, be it
because there were three of them or because the operator has gone.  (An operator
who falls silent for ever leaves the choice open for ever.)  One question is
asked after every such line, until three were asked, and only the answers to
these questions are taken. -/
theorem choose_settles (trials : List Trial) (s : Session σ) (hclock : s.clock.stopAt = none) :
    let heard := s.answers.take maxQuestions
    let chosen := choose trials maxQuestions s
    (∀ index, chosen.1 = .ok (.picked index)
      ↔ ∃ missed text later, heard = missed ++ .line text :: later
        ∧ (∀ a ∈ missed, Misses trials a) ∧ Names trials text index)
      ∧ (∀ e, chosen.1 = .error (.error e) ↔ ∃ missed later, heard = missed ++ .failure e :: later
        ∧ ∀ a ∈ missed, Misses trials a)
      ∧ (chosen.1 = .error .stalled ↔ ∃ missed later, heard = missed ++ .silence :: later
        ∧ ∀ a ∈ missed, Misses trials a)
      ∧ (chosen.1 = .ok .gaveUp ↔ ∀ a ∈ heard, Misses trials a)
      ∧ ∃ asked, 0 < asked ∧ asked ≤ maxQuestions
      ∧ (∀ a ∈ s.answers.take (asked - 1), Misses trials a)
        ∧ (asked = maxQuestions ∨ ∀ a ∈ s.answers[asked - 1]?, ¬ Misses trials a)
        ∧ chosen.2.deeds = s.deeds ++ List.replicate asked (.asked question)
        ∧ (chosen.1 ≠ .error .stalled → chosen.2.answers = s.answers.drop asked) := by
  intro heard chosen
  obtain ⟨hresult, hdeeds, hleft⟩ := choose_eq trials maxQuestions s hclock
  refine ⟨fun index => ?_, fun e => ?_, ?_, ?_, _, ?_, Nat.min_le_right _ _, ?_, ?_, hdeeds, hleft⟩
  · rw [hresult, settled_find?_eq_iff (by simp)]
    simp only [settled_some_eq_picked_iff]
    constructor
    · rintro ⟨missed, _, later, hsplit, hmissed, text, rfl, hnames⟩
      exact ⟨missed, text, later, hsplit, hmissed, hnames⟩
    · rintro ⟨missed, text, later, hsplit, hmissed, hnames⟩
      exact ⟨missed, _, later, hsplit, hmissed, text, rfl, hnames⟩
  · rw [hresult, settled_find?_eq_iff_of_unique (by simp) fun _ => settled_some_eq_error_iff]
  · rw [hresult, settled_find?_eq_iff_of_unique (by simp) fun _ => settled_some_eq_stalled_iff]
  · rw [hresult, settled_find?_eq_gaveUp_iff]
  · exact Nat.lt_min.mpr ⟨Nat.succ_pos _, by decide⟩
  · exact fun a ha => misses_of_mem_take (by omega) ha
  · by_cases hall : maxQuestions ≤ (s.answers.takeWhile (misses trials)).length + 1
    · exact .inl (Nat.min_eq_right hall)
    · rw [Nat.min_eq_left (Nat.le_of_not_le hall), Nat.add_sub_cancel]
      exact .inr fun a ha => not_misses_of_getElem? (Option.mem_def.mp ha)

/-- A number of a trial that failed, and then that of the other one, written in full. -/
theorem choose_settles_second :
    let trials : List Trial :=
      [⟨1, .standard, some "busy", .unrated⟩, ⟨2, .standard, none, .unrated⟩]
    let s : Session ScriptedSink :=
      { sink := {}, answers := [.line "1", .line " +002\n", .line "2"] }
    s.clock.stopAt = none ∧ (choose trials maxQuestions s).1 = .ok (.picked 2) := by
  intro trials s
  have hmissed : misses trials (.line "1") = true := by decide +kernel
  have hnamed : named? trials " +002\n" = some 2 := by decide +kernel
  refine ⟨rfl, ((choose_settles trials s rfl).1 2).mpr
    ⟨[.line "1"], " +002\n", [.line "2"], rfl, ?_, ?_⟩⟩
  · exact List.forall_mem_singleton.mpr (misses_iff.mp hmissed)
  · exact named?_eq_some_iff.mp hnamed

end Sweep

end Scanout
