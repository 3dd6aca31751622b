import Mathlib.Data.List.TakeDrop
import Scanout.Proofs.Answers
import Scanout.Proofs.RecordText

/-!
# How a size is written

The text of a size is two numerals with an `x` between them and white space
around either (`Size.Writes`).  `Size.parse` cuts a text at its first `x`.  It
is the only one, since no numeral has such a letter (`Size.isCross_of_writes`).
The whole text is trimmed before it is cut and either side after, and both
together come to the same as trimming the sides alone
(`Size.readSides_of_split`).  So two 32-bit counts are read exactly where they
are written (`Size.readSides_eq_some_iff`), and the sides of a size as it is
printed are such numerals.
-/

namespace Scanout

/-! ## Trimming around a character -/

namespace Text

variable {cs left right : List Char} {c : Char}

/-- The white space at the ends of a text is that of its outer parts. -/
theorem trim_of_split (hc : isBlank c = false) :
    trim (left ++ c :: right) = trimLeft left ++ c :: trimRight right := by
  have hleft : trimLeft (left ++ c :: right) = trimLeft left ++ c :: right := by
    rw [trimLeft, trimLeft, List.dropWhile_append]
    split
    · rename_i hempty
      rw [List.isEmpty_iff.mp hempty, List.dropWhile_cons_of_neg (by simp [hc]), List.nil_append]
    · rfl
  rw [trim, hleft, trimRight, trimRight, List.reverse_append, List.reverse_cons, List.append_assoc,
    List.dropWhile_append]
  split
  · rename_i hempty
    rw [List.isEmpty_iff.mp hempty, List.singleton_append,
      List.dropWhile_cons_of_neg (by simp [hc])]
    simp
  · simp

theorem trim_trimLeft (cs : List Char) : trim (trimLeft cs) = trim cs := by
  conv => rhs; rw [← List.takeWhile_append_dropWhile (p := isBlank) (l := cs)]
  rw [trim_blanks_append fun c hc => List.mem_takeWhile_imp hc, trimLeft]

theorem trim_trimRight (cs : List Char) : trim (trimRight cs) = trim cs := by
  have hsplit : cs = trimRight cs ++ (cs.reverse.takeWhile isBlank).reverse := by
    rw [trimRight, ← List.reverse_append, List.takeWhile_append_dropWhile, List.reverse_reverse]
  conv => rhs; rw [hsplit]
  rw [trim_append_blanks fun c hc => List.mem_takeWhile_imp (List.mem_reverse.mp hc)]

/-- A number as it is printed is a numeral. -/
theorem writes_toDigits (n : Nat) : Writes (Nat.toDigits 10 n) n :=
  ⟨[], [], Nat.toDigits 10 n, [], by simp, by simp, by simp, .inl rfl, Nat.toDigits_ne_nil,
    fun _ hc => isDigit_of_mem_toDigits hc, digitsValue_toDigits n⟩

end Text

namespace Size

variable {cs left right : List Char} {c : Char} {s : String} {size : Size} {width height n : Nat}

/-- The text is two numerals with an `x` between them, in either case, and white
space around either numeral. -/
def Writes (cs : List Char) (width height : Nat) : Prop :=
  ∃ left cross right, cs = left ++ cross :: right ∧ (cross = 'x' ∨ cross = 'X')
    ∧ Text.Writes left width ∧ Text.Writes right height

/-! ## Cutting a text -/

theorem isCross_iff : isCross c = true ↔ c = 'x' ∨ c = 'X' := by simp [isCross]

theorem isBlank_of_isCross (h : isCross c = true) : Text.isBlank c = false := by
  obtain rfl | rfl := isCross_iff.mp h
  · decide
  · decide

theorem isDigit_of_isCross (h : isCross c = true) : Text.isDigit c = false := by
  obtain rfl | rfl := isCross_iff.mp h
  · decide
  · decide

/-- A numeral has no `x`. -/
theorem isCross_of_writes (h : Text.Writes cs n) (hc : c ∈ cs) : isCross c = false := by
  obtain ⟨before, sign, digits, after, rfl, hbefore, hafter, hsign, -, hdigits, -⟩ := h
  rw [Bool.eq_false_iff]
  intro hcross
  simp only [List.mem_append, or_assoc] at hc
  obtain hc | hc | hc | hc := hc
  · exact absurd (hbefore c hc) (by simp [isBlank_of_isCross hcross])
  · obtain rfl | rfl := hsign
    · cases hc
    · rw [List.mem_singleton.mp hc] at hcross
      exact absurd hcross (by decide)
  · exact absurd (hdigits c hc) (by simp [isDigit_of_isCross hcross])
  · exact absurd (hafter c hc) (by simp [isBlank_of_isCross hcross])

theorem uncrossed_or_split (cs : List Char) : (∀ c ∈ cs, isCross c = false) ∨ ∃ left c right,
    cs = left ++ c :: right ∧ (∀ d ∈ left, isCross d = false) ∧ isCross c = true := by
  cases hfind : cs.find? isCross with
  | none =>
      left
      simpa using hfind
  | some c =>
      right
      obtain ⟨hc, left, right, hsplit, hleft⟩ := List.find?_eq_some_iff_append.mp hfind
      exact ⟨left, c, right, hsplit, by simpa using hleft, hc⟩

theorem readSides_of_uncrossed (h : ∀ c ∈ cs, isCross c = false) : readSides cs = none := by
  obtain ⟨before, after, hcs, -, -⟩ := Text.exists_blanks cs
  have htrim : ∀ c ∈ Text.trim cs, (!isCross c) = true := by
    intro c hc
    rw [h c (by rw [hcs]; simp [hc])]
    rfl
  rw [readSides, List.span_eq_takeWhile_dropWhile, List.dropWhile_eq_nil_iff.mpr htrim]

/-- A text with an `x` is read side by side. -/
theorem readSides_of_split (hleft : ∀ d ∈ left, isCross d = false) (hc : isCross c = true) :
    readSides (left ++ c :: right)
      = (readSide left).bind fun width => (readSide right).map fun height => (width, height) := by
  have hbefore : ∀ d ∈ Text.trimLeft left, (!isCross d) = true := by
    intro d hd
    rw [hleft d ((List.dropWhile_sublist _).subset hd)]
    rfl
  have hcut : (!isCross c) ≠ true := by simp [hc]
  rw [readSides, Text.trim_of_split (isBlank_of_isCross hc), List.span_eq_takeWhile_dropWhile,
    List.takeWhile_append_of_pos hbefore, List.dropWhile_append_of_pos hbefore,
    List.takeWhile_cons_of_neg (p := fun d => !isCross d) hcut,
    List.dropWhile_cons_of_neg (p := fun d => !isCross d) hcut, List.append_nil]
  dsimp only
  rw [readSide, readSide, Text.trim_trimLeft, Text.trim_trimRight, ← readSide, ← readSide]
  cases readSide left with
  | none => rfl
  | some width =>
      cases readSide right with
      | none => rfl
      | some height => rfl

/-- Two counts are read exactly where they are written. -/
theorem readSides_eq_some_iff : readSides cs = some (width, height)
    ↔ Writes cs width height ∧ width < 4294967296 ∧ height < 4294967296 := by
  constructor
  · intro h
    obtain hnone | ⟨left, c, right, rfl, hleft, hc⟩ := uncrossed_or_split cs
    · rw [readSides_of_uncrossed hnone] at h
      cases h
    · rw [readSides_of_split hleft hc] at h
      simp only [Option.bind_eq_some_iff, Option.map_eq_some_iff, Prod.mk.injEq, readSide,
        Text.readNumeral_trim_eq_some_iff] at h
      obtain ⟨_, ⟨hwidth, hwlt⟩, _, ⟨hheight, hhlt⟩, rfl, rfl⟩ := h
      exact ⟨⟨left, c, right, rfl, isCross_iff.mp hc, hwidth, hheight⟩, hwlt, hhlt⟩
  · -- the text is cut at its first cross, which is this one because the numeral
    -- before it has none
    rintro ⟨⟨left, c, right, rfl, hc, hwidth, hheight⟩, hwlt, hhlt⟩
    rw [readSides_of_split (fun d hd => isCross_of_writes hwidth hd) (isCross_iff.mpr hc), readSide,
      readSide, Text.readNumeral_trim_eq_some_iff.mpr ⟨hwidth, hwlt⟩,
      Text.readNumeral_trim_eq_some_iff.mpr ⟨hheight, hhlt⟩]
    rfl

/-! ## Reading a size -/

theorem ofNat?_eq_some_iff :
    ofNat? width height = some size ↔ size.width = width ∧ size.height = height := by
  constructor
  · intro h
    unfold ofNat? at h
    split at h
    · split at h
      · cases h
        exact ⟨rfl, rfl⟩
      · cases h
    · cases h
  · rintro ⟨rfl, rfl⟩
    rw [ofNat?, dif_pos size.width_lt, dif_pos size.height_lt]

/-- The size that a text writes, be it one with pixels or not. -/
def read? (cs : List Char) : Option Size :=
  (readSides cs).bind fun (width, height) => ofNat? width height

theorem read?_eq_some_iff : read? cs = some size ↔ Writes cs size.width size.height := by
  rw [read?, Option.bind_eq_some_iff]
  constructor
  · rintro ⟨⟨width, height⟩, hsides, hsize⟩
    obtain ⟨rfl, rfl⟩ := ofNat?_eq_some_iff.mp hsize
    exact (readSides_eq_some_iff.mp hsides).1
  · intro h
    exact ⟨(size.width, size.height), readSides_eq_some_iff.mpr ⟨h, size.width_lt, size.height_lt⟩,
      ofNat?_eq_some_iff.mpr ⟨rfl, rfl⟩⟩

/-- The error of a text that writes no size. -/
def misread (s : String) : Error := .config "resolution" ("expected WxH, got '" ++ s ++ "'")

theorem parse_eq (s : String) : parse s = match read? s.toList with
    | none => .error (misread s)
    | some size =>
        if size.positive then .ok size else .error (.invalidDimensions size.width size.height) := by
  rw [parse, ← read?, misread]
  cases read? s.toList with
  | none => rfl
  | some size =>
      dsimp only
      unfold check
      cases size.positive with
      | true => rfl
      | false => rfl

theorem positive_eq_false_iff : size.positive = false ↔ size.width = 0 ∨ size.height = 0 := by
  rw [← Bool.not_eq_true, positive_iff]
  omega

theorem parse_eq_ok_iff :
    parse s = .ok size ↔ read? s.toList = some size ∧ size.positive = true := by
  rw [parse_eq]
  cases read? s.toList with
  | none => simp
  | some found =>
      cases hfound : found.positive with
      | true =>
          simp only [hfound, if_true, Except.ok.injEq, Option.some.injEq]
          exact ⟨fun h => ⟨h, h ▸ hfound⟩, And.left⟩
      | false =>
          simp only [hfound, Bool.false_eq_true, if_false, reduceCtorEq, Option.some.injEq,
            false_iff, not_and]
          rintro rfl
          exact Bool.eq_false_iff.mp hfound

theorem parse_eq_invalidDimensions_iff :
    parse s = .error (.invalidDimensions size.width size.height)
    ↔ read? s.toList = some size ∧ size.positive = false := by
  rw [parse_eq]
  cases read? s.toList with
  | none => simp [misread]
  | some found =>
      cases hfound : found.positive with
      | true =>
          simp only [hfound, if_true, reduceCtorEq, Option.some.injEq, false_iff, not_and]
          rintro rfl
          simp [hfound]
      | false =>
          simp only [hfound, Bool.false_eq_true, if_false, Except.error.injEq,
            Error.invalidDimensions.injEq, Option.some.injEq]
          constructor
          · rintro ⟨hwidth, hheight⟩
            have hsame : found = size := ext' hwidth hheight
            exact ⟨hsame, hsame ▸ hfound⟩
          · rintro ⟨rfl, -⟩
            exact ⟨rfl, rfl⟩

theorem parse_eq_misread_iff : parse s = .error (misread s) ↔ read? s.toList = none := by
  rw [parse_eq]
  cases read? s.toList with
  | none => simp
  | some found =>
      cases hfound : found.positive with
      | true => simp [hfound]
      | false => simp [hfound, misread]

theorem writes_text (size : Size) : Writes size.text.toList size.width size.height := by
  refine ⟨Nat.toDigits 10 size.width, 'x', Nat.toDigits 10 size.height, ?_, .inl rfl,
    Text.writes_toDigits _, Text.writes_toDigits _⟩
  simp [text, Nat.toString_eq_repr, Nat.toList_repr]

/-- A text with a size is read as that size if both sides are positive, and
rejected as a size without pixels if one of them is zero.  Any other text is
rejected as a whole. -/
theorem parse_reads :
    (∀ s : String,
        (∀ size, parse s = .ok size
          ↔ Writes s.toList size.width size.height ∧ 0 < size.width ∧ 0 < size.height)
        ∧ (∀ size : Size, parse s = .error (.invalidDimensions size.width size.height)
          ↔ Writes s.toList size.width size.height ∧ (size.width = 0 ∨ size.height = 0))
        ∧ (parse s = .error (misread s) ↔ ∀ size : Size, ¬ Writes s.toList size.width size.height))
      ∧ ∀ size : Size, 0 < size.width → 0 < size.height → parse size.text = .ok size := by
  refine ⟨fun s => ?_, fun size hwidth hheight => ?_⟩
  · refine ⟨fun size => ?_, fun size => ?_, ?_⟩
    · rw [parse_eq_ok_iff, read?_eq_some_iff, positive_iff]
    · rw [parse_eq_invalidDimensions_iff, read?_eq_some_iff, positive_eq_false_iff]
    · rw [parse_eq_misread_iff, Option.eq_none_iff_forall_ne_some]
      exact forall_congr' fun size => not_congr read?_eq_some_iff
  · exact parse_eq_ok_iff.mpr
      ⟨read?_eq_some_iff.mpr size.writes_text, size.positive_iff.mpr ⟨hwidth, hheight⟩⟩

/-- White space and a plus sign, leading zeros and a capital letter. -/
theorem parse_reads_padded :
    let size : Size := { width := 800, height := 600 }
    Writes " 800 X\t+0600 ".toList size.width size.height ∧ 0 < size.width ∧ 0 < size.height
      ∧ parse " 800 X\t+0600 " = .ok size ∧ parse size.text = .ok size := by
  intro size
  have hread : read? " 800 X\t+0600 ".toList = some size := by decide +kernel
  have hwrites : Writes " 800 X\t+0600 ".toList size.width size.height := read?_eq_some_iff.mp hread
  obtain ⟨hreads, hprinted⟩ := parse_reads
  have hpositive : 0 < size.width ∧ 0 < size.height := by decide
  exact ⟨hwrites, hpositive.1, hpositive.2, ((hreads _).1 size).mpr ⟨hwrites, hpositive⟩,
    hprinted size hpositive.1 hpositive.2⟩

end Size

end Scanout
