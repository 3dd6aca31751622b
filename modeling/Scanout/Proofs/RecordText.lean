import Mathlib.Data.List.TakeWhile
import Scanout.Record

/-!
# Records are read as they were written

`Record.write` prints a layout and `Record.parse` reads any record, in today's
spelling or an older one.  The two meet in the tokens of a record
(`Record.tokensOf`).

Writing.  A text lexes into tokens if the lexer passes from between two tokens
to between two tokens and adds exactly those (`Json.Lexes`).  Texts in a row lex
into their tokens in a row, so the record is lexed piece by piece.  A number
ends only at what follows it, so its piece includes the comma.

Reading.  The tokens of a record have five known members, each of which says
what the layout has there (`Record.ofTokens?_tokensOf`).  A record of any origin
yields a layout if and only if the layout is what its members say and passes the
check (`Record.layout_eq_ok_iff`).
-/

namespace Scanout

/-! ## Decimal numerals -/

namespace Text

theorem isDigit_of_mem_toDigits {n : Nat} {c : Char} (h : c ∈ Nat.toDigits 10 n) :
    isDigit c = true := by
  have hc := Nat.isDigit_of_mem_toDigits (by decide) (by decide) h
  simpa [isDigit, Char.isDigit, Char.le_def] using hc

theorem digitsValue_toDigits (n : Nat) : digitsValue (Nat.toDigits 10 n) = n := by
  have hfold : ∀ cs : List Char, digitsValue cs = Nat.ofDigitChars 10 cs 0 := by
    intro cs
    simp only [digitsValue, Nat.ofDigitChars, digitValue, Nat.mul_comm]
  rw [hfold, Nat.ofDigitChars_ten_toDigits]

/-- A positive number is written without leading zeros. -/
theorem head?_toDigits {n : Nat} (h : 0 < n) : (Nat.toDigits 10 n).head? ≠ some '0' := by
  induction n using Nat.strongRecOn with
  | ind n ih =>
      rw [Nat.toDigits_eq_if (by decide)]
      split
      · rename_i hlt
        have : ∀ m < 10, 0 < m → m.digitChar ≠ '0' := by decide
        simpa using this n hlt h
      · rename_i hge
        have hrest := ih (n / 10) (by omega) (by omega)
        cases hds : Nat.toDigits 10 (n / 10) with
        | nil => exact absurd hds Nat.toDigits_ne_nil
        | cons d ds =>
            rw [hds] at hrest
            exact hrest

end Text

namespace Json

theorem toDigits_ne_minus (n : Nat) (cs : List Char) : Nat.toDigits 10 n ≠ '-' :: cs := by
  intro h
  have hdigit :=
    Text.isDigit_of_mem_toDigits (n := n) (c := '-') (by rw [h]; exact List.mem_cons_self)
  exact absurd hdigit (by decide)

theorem dropMinus_toDigits (n : Nat) : dropMinus (Nat.toDigits 10 n) = Nat.toDigits 10 n := by
  unfold dropMinus
  split
  · rename_i cs hcs
    exact absurd hcs (toDigits_ne_minus n cs)
  · rfl

theorem isWhole_toDigits {n : Nat} (h : 0 < n) : isWhole (Nat.toDigits 10 n) = true := by
  have hhead := Text.head?_toDigits h
  unfold isWhole
  split
  · rename_i hds
    exact absurd hds Nat.toDigits_ne_nil
  · rfl
  · rename_i hds
    rw [hds] at hhead
    exact absurd rfl hhead
  · rfl

theorem isNumber_toDigits {n : Nat} (h : 0 < n) : isNumber (Nat.toDigits 10 n) = true := by
  have hall : ∀ c ∈ Nat.toDigits 10 n, Text.isDigit c = true :=
    fun c hc => Text.isDigit_of_mem_toDigits hc
  rw [isNumber, dropMinus_toDigits, List.takeWhile_eq_self_iff.mpr hall,
    List.dropWhile_eq_nil_iff.mpr hall, isWhole_toDigits h]
  rfl

theorem integer?_toDigits (n : Nat) : integer? (Nat.toDigits 10 n) = some (n : Int) := by
  have hds : isDigits (Nat.toDigits 10 n) = true := by
    rw [isDigits, List.all_eq_true.mpr fun c hc => Text.isDigit_of_mem_toDigits hc, Bool.and_true,
      List.isEmpty_eq_false_iff.mpr Nat.toDigits_ne_nil]
    rfl
  unfold integer?
  split
  · rename_i cs hcs
    exact absurd hcs (toDigits_ne_minus n cs)
  · rw [if_pos hds, Text.digitsValue_toDigits]

/-! ## Lexing piece by piece -/

/-- The mode and the tokens so far after some characters. -/
def scan : Mode → List Token → List Char → Option (Mode × List Token)
  | mode, ts, [] => some (mode, ts)
  | mode, ts, c :: cs => (step c ts mode).bind fun next => scan next.1 next.2 cs

theorem scan_append (a b : List Char) (mode : Mode) (ts : List Token) :
    scan mode ts (a ++ b) = (scan mode ts a).bind fun next => scan next.1 next.2 b := by
  induction a generalizing mode ts with
  | nil => rfl
  | cons c a ih =>
      rw [List.cons_append, scan, scan, Option.bind_assoc]
      congr 1
      funext next
      exact ih next.1 next.2

theorem lex_eq_scan (cs : List Char) (mode : Mode) (ts : List Token) :
    lex mode ts cs = (scan mode ts cs).bind fun next => finish next.2 next.1 := by
  induction cs generalizing mode ts with
  | nil => rfl
  | cons c cs ih =>
      rw [lex, scan]
      cases step c ts mode with
      | none => rfl
      | some next => exact ih next.1 next.2

/-- Between two tokens, the text is read as exactly these tokens. -/
def Lexes (cs : List Char) (tokens : List Token) : Prop :=
  ∀ ts, scan .outside ts cs = some (.outside, tokens.reverse ++ ts)

theorem Lexes.append {a b : List Char} {s t : List Token} (ha : Lexes a s) (hb : Lexes b t) :
    Lexes (a ++ b) (s ++ t) := by
  intro ts
  rw [scan_append, ha ts, Option.bind_some]
  dsimp only
  rw [hb, List.reverse_append, List.append_assoc]

theorem Lexes.tokens? {cs : List Char} {tokens : List Token} (h : Lexes cs tokens) :
    tokens? cs = some tokens := by
  rw [Json.tokens?, lex_eq_scan, h [], Option.bind_some]
  simp only [finish, List.append_nil, List.reverse_reverse]

theorem scan_digits {ds : List Char} (h : ∀ c ∈ ds, Text.isDigit c = true) (read : List Char)
    (ts : List Token) :
    scan (.number read) ts ds = some (.number (ds.reverse ++ read), ts) := by
  induction ds generalizing read with
  | nil => rfl
  | cons d ds ih =>
      have hd : inNumber d = true := by rw [inNumber, h d List.mem_cons_self]; rfl
      rw [scan, step, if_pos hd, Option.bind_some]
      dsimp only
      rw [ih fun c hc => h c (List.mem_cons_of_mem d hc), List.reverse_cons, List.append_assoc]
      rfl

theorem start_digit {c : Char} (h : Text.isDigit c = true) (ts : List Token) :
    start c ts = some (.number [c], ts) := by
  have hne : ∀ d, Text.isDigit d = false → c ≠ d := by
    rintro d hd rfl
    exact absurd (h.symm.trans hd) (by decide)
  have hspace : isSpace c = false := by
    simp [isSpace, hne ' ' rfl, hne '\t' rfl, hne '\n' rfl, hne '\r' rfl]
  simp [start, hspace, hne '\x7b' rfl, hne '\x7d' rfl, hne '[' rfl, hne ']' rfl, hne ':' rfl,
    hne ',' rfl, hne '"' rfl, h]

/-- The comma ends the number. -/
theorem lexes_number {n : Nat} (h : 0 < n) :
    Lexes (Nat.toDigits 10 n ++ [',']) [.number (Nat.toDigits 10 n), .comma] := by
  intro ts
  have hnumber : number? (Nat.toDigits 10 n) = some (.number (Nat.toDigits 10 n)) := by
    rw [number?, if_pos (isNumber_toDigits h)]
  have hall : ∀ c ∈ Nat.toDigits 10 n, Text.isDigit c = true :=
    fun c hc => Text.isDigit_of_mem_toDigits hc
  cases hds : Nat.toDigits 10 n with
  | nil => exact absurd hds Nat.toDigits_ne_nil
  | cons d ds =>
      rw [hds] at hnumber hall
      have hread : scan .outside ts (d :: ds) = some (.number (d :: ds).reverse, ts) := by
        rw [scan, step, start_digit (hall d List.mem_cons_self), Option.bind_some]
        dsimp only
        rw [scan_digits fun c hc => hall c (List.mem_cons_of_mem d hc), List.reverse_cons]
      have hcomma : step ',' ts (.number (d :: ds).reverse)
          = some (.outside, .comma :: .number (d :: ds) :: ts) := by
        rw [step, if_neg (by decide), List.reverse_reverse, hnumber]
        rfl
      rw [scan_append, hread, Option.bind_some, scan, hcomma]
      rfl

end Json

/-! ## The tokens of a record -/

namespace Record

open Json

/-- The tokens of the record of a layout. -/
def tokensOf (l : Layout) : List Token :=
  [.openBrace, .string (some "width".toList), .colon, .number (Nat.toDigits 10 l.width), .comma,
    .string (some "height".toList), .colon, .number (Nat.toDigits 10 l.height), .comma,
    .string (some "stride".toList), .colon, .number (Nat.toDigits 10 l.stride), .comma,
    .string (some "channel_order".toList), .colon, .string (some l.order.name.toList), .comma,
    .string (some "fit_mode".toList), .colon, .string (some l.fit.name.toList), .closeBrace]

theorem tokens?_write {l : Layout} (hw : 0 < l.width) (hh : 0 < l.height) (hs : 0 < l.stride) :
    tokens? (write l).toList = some (tokensOf l) := by
  have hopen : Lexes "\x7b\n  \"width\": ".toList
      [.openBrace, .string (some "width".toList), .colon] :=
    fun _ => rfl
  have hheight : Lexes "\n  \"height\": ".toList [.string (some "height".toList), .colon] :=
    fun _ => rfl
  have hstride : Lexes "\n  \"stride\": ".toList [.string (some "stride".toList), .colon] :=
    fun _ => rfl
  have horder : Lexes ("\n  \"channel_order\": \"" ++ l.order.name ++ "\"").toList
      [.string (some "channel_order".toList), .colon, .string (some l.order.name.toList)] := by
    cases l.order <;> exact fun _ => rfl
  have hfit : Lexes (",\n  \"fit_mode\": \"" ++ l.fit.name ++ "\"").toList
      [.comma, .string (some "fit_mode".toList), .colon, .string (some l.fit.name.toList)] := by
    cases l.fit <;> exact fun _ => rfl
  have hclose : Lexes "\n\x7d\n".toList [.closeBrace] := fun _ => rfl
  have hall :=
    hopen.append <| (lexes_number hw).append <| hheight.append <| (lexes_number hh).append <|
    hstride.append <| (lexes_number hs).append <| horder.append <| hfit.append hclose
  -- The literals of the record, cut where the pieces end.
  have htext : write l = "\x7b\n  \"width\": " ++ (toString l.width ++ "," ++ ("\n  \"height\": " ++
      (toString l.height ++ "," ++ ("\n  \"stride\": " ++ (toString l.stride ++ "," ++
      (("\n  \"channel_order\": \"" ++ l.order.name ++ "\"") ++
      ((",\n  \"fit_mode\": \"" ++ l.fit.name ++ "\"") ++ "\n\x7d\n"))))))) := by
    have hheight : ",\n  \"height\": " = "," ++ "\n  \"height\": " := rfl
    have hstride : ",\n  \"stride\": " = "," ++ "\n  \"stride\": " := rfl
    have horder : ",\n  \"channel_order\": \"" = "," ++ "\n  \"channel_order\": \"" := rfl
    have hfit : "\",\n  \"fit_mode\": \"" = "\"" ++ ",\n  \"fit_mode\": \"" := rfl
    have hclose : "\"\n\x7d\n" = "\"" ++ "\n\x7d\n" := rfl
    unfold write
    rw [hheight, hstride, horder, hfit, hclose]
    simp only [String.append_assoc]
  rw [htext]
  simp only [String.toList_append, Nat.toString_eq_repr, Nat.toList_repr] at hall ⊢
  exact hall.tokens?

/-! ## The members of a record -/

/-- The record has five members of the layout, and the older two are absent. -/
theorem ofTokens?_tokensOf (l : Layout) :
    ofTokens? (tokensOf l)
      = ofValues? [[.number (Nat.toDigits 10 l.width)], [.number (Nat.toDigits 10 l.height)],
      [.number (Nat.toDigits 10 l.stride)], [.string (some l.order.name.toList)], [.null],
      [.string (some l.fit.name.toList)], [.null]] :=
  rfl

theorem readNumber_toDigits {n : Nat} (h : n < 9223372036854775808) :
    readNumber [.number (Nat.toDigits 10 n)] = some (some (n : Int)) := by
  have hword : word? (Nat.toDigits 10 n) = some (n : Int) := by
    rw [word?, integer?_toDigits, Option.filter_some, if_pos]
    simp
    omega
  rw [readNumber, hword, Option.map_some]

theorem readOrder_name (o : ChannelOrder) :
    readOrder [.string (some o.name.toList)] = some (some o) := by
  cases o <;> decide +kernel

theorem readFit_name (f : Fit) : readFit [.string (some f.name.toList)] = some (some f) := by
  cases f <;> decide +kernel

/-- A record says what the layout has. -/
def ofLayout (l : Layout) : Record where
  width := some l.width
  height := some l.height
  stride := some l.stride
  channelOrder := some l.order
  fitMode := some l.fit

theorem read?_write {l : Layout} (hw : 0 < l.width) (hh : 0 < l.height) (hs : 0 < l.stride)
    (hword : l.stride < 9223372036854775808) : read? (write l) = some (ofLayout l) := by
  have hwidth := l.width_lt
  have hheight := l.height_lt
  rw [read?, tokens?_write hw hh hs, Option.bind_some, ofTokens?_tokensOf, ofValues?,
    readNumber_toDigits (by omega), readNumber_toDigits (by omega), readNumber_toDigits hword,
    readOrder_name, readFit_name]
  rfl

theorem side_natCast (field : String) {n : Nat} (h : 0 < n) (hn : n < 4294967296) :
    side field (some n) = .ok ⟨n, hn⟩ := by
  have hcast : (0 : Int) < n ∧ (n : Int) < 4294967296 := by omega
  rw [side, dif_pos hcast]
  rfl

/-! ## The layout of a record -/

/-- The layout is what the record says, member by member. -/
structure Says (r : Record) (l : Layout) : Prop where
  width : r.width = some (l.width : Int)
  height : r.height = some (l.height : Int)
  stride : r.stride = some (l.stride : Int)
  order : orderOf r.channelOrder r.swapBgr = .ok l.order
  fit : fitOf r.fitMode r.mode = .ok l.fit

theorem side_eq_ok {field : String} {n : Option Int} {m : { n : Nat // n < 4294967296 }}
    (h : side field n = .ok m) :
    n = some (m.val : Int) := by
  unfold side at h
  split at h
  · cases h
  · split at h
    · rename_i n hn
      cases h
      exact congrArg some (Int.toNat_of_nonneg (Int.le_of_lt hn.1)).symm
    · cases h

theorem strideOf_eq_ok_iff {n : Option Int} {m : Nat} :
    strideOf n = .ok m ↔ n = some (m : Int) := by
  constructor
  · intro h
    unfold strideOf at h
    split at h
    · cases h
    · split at h
      · rename_i n hn
        cases h
        exact congrArg some (Int.toNat_of_nonneg hn).symm
      · cases h
  · rintro rfl
    rw [strideOf, if_pos (Int.natCast_nonneg m)]
    rfl

/-- A record yields a layout if and only if the layout is what it says and
passes the check. -/
theorem layout_eq_ok_iff {r : Record} {l : Layout} :
    r.layout = .ok l ↔ r.Says l ∧ l.check = .ok () := by
  constructor
  · intro h
    obtain ⟨width, hwidth, h⟩ := bind_eq_ok.mp h
    obtain ⟨height, hheight, h⟩ := bind_eq_ok.mp h
    obtain ⟨stride, hstride, h⟩ := bind_eq_ok.mp h
    obtain ⟨order, horder, h⟩ := bind_eq_ok.mp h
    obtain ⟨fit, hfit, h⟩ := bind_eq_ok.mp h
    obtain ⟨⟨⟩, hcheck, h⟩ := bind_eq_ok.mp h
    cases h
    exact ⟨⟨side_eq_ok hwidth, side_eq_ok hheight, strideOf_eq_ok_iff.mp hstride, horder, hfit⟩,
      hcheck⟩
  · rintro ⟨⟨hwidth, hheight, hstride, horder, hfit⟩, hcheck⟩
    obtain ⟨hw, hh, -, -⟩ := l.check_eq_ok_iff.mp hcheck
    unfold layout
    rw [hwidth, hheight]
    refine bind_eq_ok.mpr ⟨_, side_natCast "width" hw l.width_lt, ?_⟩
    refine bind_eq_ok.mpr ⟨_, side_natCast "height" hh l.height_lt, ?_⟩
    refine bind_eq_ok.mpr ⟨_, strideOf_eq_ok_iff.mpr hstride, ?_⟩
    refine bind_eq_ok.mpr ⟨_, horder, ?_⟩
    refine bind_eq_ok.mpr ⟨_, hfit, ?_⟩
    exact bind_eq_ok.mpr ⟨(), hcheck, rfl⟩

theorem says_ofLayout (l : Layout) : (ofLayout l).Says l := ⟨rfl, rfl, rfl, rfl, rfl⟩

/-- A layout that passes the check is read back from its record. -/
theorem parse_write {l : Layout} (hl : l.check = .ok ()) : parse (write l) = .ok l := by
  obtain ⟨hw, hh, hr, hb⟩ := l.check_eq_ok_iff.mp hl
  have hs : 0 < l.stride := by rw [Layout.rowBytes] at hr; omega
  have hword : l.stride < 9223372036854775808 := by
    have : l.stride ≤ l.stride * l.height := Nat.le_mul_of_pos_right _ hh
    have : maxBufferLength = 67108864 := rfl
    omega
  rw [parse, read?_write hw hh hs hword]
  exact layout_eq_ok_iff.mpr ⟨says_ofLayout l, hl⟩

end Record

end Scanout
