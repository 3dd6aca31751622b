import Scanout.Text.Numeral

/-!
# JSON tokens

`tokens?` cuts a text into JSON tokens.  It reads one character at a time and
keeps what it is in the middle of as a `Mode`, so its recursion is on the text
alone.

The lexical rules are strict.  White space is the four characters space, tab,
line feed and carriage return.  A number has no leading zeros and digits on both
sides of its point.  A string has no control characters, only the escapes of the
standard, and four hexadecimal digits after `\u`.  A string may contain half of
a surrogate pair alone: it is then a token without a text, which a reader may
skip but not use.
-/

namespace Scanout.Json

inductive Token where
  | openBrace
  | closeBrace
  | openBracket
  | closeBracket
  | colon
  | comma
  | null
  | bool (b : Bool)
  /-- A number as it is written. -/
  | number (text : List Char)
  /-- A string, or none if it contains half a surrogate pair. -/
  | string (text : Option (List Char))
deriving DecidableEq, Repr

/-! ## Strings -/

/-- A piece of a string: a character, or a 16-bit unit given by its number. -/
inductive Piece where
  | char (c : Char)
  | unit (n : Nat)
deriving DecidableEq, Repr

/-- The unit is the first of a surrogate pair. -/
def isHigh (n : Nat) : Bool := 0xd800 ≤ n && n < 0xdc00

/-- The unit is the second of a surrogate pair. -/
def isLow (n : Nat) : Bool := 0xdc00 ≤ n && n < 0xe000

/-- The text of a string, if its surrogates are all paired. -/
def join : List Piece → Option (List Char)
  | [] => some []
  | .char c :: ps => (join ps).map (c :: ·)
  | .unit n :: ps =>
      if isHigh n then
        match ps with
        | .unit m :: ps =>
            if isLow m then
              (join ps).map (Char.ofNat (0x10000 + (n - 0xd800) * 0x400 + (m - 0xdc00)) :: ·)
            else none
        | _ => none
      else if isLow n then none
      else (join ps).map (Char.ofNat n :: ·)

/-- The character that a one-letter escape stands for. -/
def escape? : Char → Option Char
  | '"' => some '"'
  | '\\' => some '\\'
  | '/' => some '/'
  | 'b' => some '\x08'
  | 'f' => some '\x0c'
  | 'n' => some '\n'
  | 'r' => some '\r'
  | 't' => some '\t'
  | _ => none

/-- The value of a hexadecimal digit. -/
def hexValue? (c : Char) : Option Nat :=
  if '0' ≤ c && c ≤ '9' then some (c.toNat - '0'.toNat)
  else if 'a' ≤ c && c ≤ 'f' then some (c.toNat - 'a'.toNat + 10)
  else if 'A' ≤ c && c ≤ 'F' then some (c.toNat - 'A'.toNat + 10)
  else none

/-! ## Numbers -/

/-- One or more digits and nothing else. -/
def isDigits (cs : List Char) : Bool := !cs.isEmpty && cs.all Text.isDigit

/-- Nothing, or the exponent of a number. -/
def isExponent : List Char → Bool
  | [] => true
  | c :: cs =>
      (c == 'e' || c == 'E') &&
        match cs with
        | '+' :: ds => isDigits ds
        | '-' :: ds => isDigits ds
        | ds => isDigits ds

/-- The fraction and the exponent of a number, each if present. -/
def isFraction : List Char → Bool
  | '.' :: cs => !(cs.takeWhile Text.isDigit).isEmpty && isExponent (cs.dropWhile Text.isDigit)
  | cs => isExponent cs

/-- Digits without leading zeros. -/
def isWhole : List Char → Bool
  | [] => false
  | ['0'] => true
  | '0' :: _ => false
  | _ => true

/-- A number without its sign. -/
def dropMinus : List Char → List Char
  | '-' :: cs => cs
  | cs => cs

def isNumber (cs : List Char) : Bool :=
  let ds := dropMinus cs
  isWhole (ds.takeWhile Text.isDigit) && isFraction (ds.dropWhile Text.isDigit)

/-- The whole number a text stands for: digits after an optional minus sign.
Minus zero is not a whole number. -/
def integer? : List Char → Option Int
  | '-' :: cs =>
      if isDigits cs && Text.digitsValue cs != 0 then some (-(Text.digitsValue cs : Int)) else none
  | cs => if isDigits cs then some (Text.digitsValue cs) else none

/-! ## Cutting a text into tokens -/

/-- What the lexer is in the middle of.  Characters and pieces read so far are
kept last first. -/
inductive Mode where
  /-- Between two tokens. -/
  | outside
  | word (read : List Char)
  | number (read : List Char)
  | string (read : List Piece)
  /-- After a backslash in a string. -/
  | escape (read : List Piece)
  /-- In a numbered escape with some digits left to read. -/
  | unit (read : List Piece) (left value : Nat)

/-- The word is one of the three that JSON knows. -/
def word? (cs : List Char) : Option Token :=
  if cs = ['n', 'u', 'l', 'l'] then some .null
  else if cs = ['t', 'r', 'u', 'e'] then some (.bool true)
  else if cs = ['f', 'a', 'l', 's', 'e'] then some (.bool false)
  else none

def number? (cs : List Char) : Option Token := if isNumber cs then some (.number cs) else none

/-- The character can stand in a number. -/
def inNumber (c : Char) : Bool :=
  Text.isDigit c || c == '-' || c == '+' || c == '.' || c == 'e' || c == 'E'

/-- The character can stand in a word. -/
def inWord (c : Char) : Bool := 'a' ≤ c && c ≤ 'z'

/-- White space between tokens. -/
def isSpace (c : Char) : Bool := c == ' ' || c == '\t' || c == '\n' || c == '\r'

/-- A character between two tokens: the mode it leads to, and the tokens so far,
last first. -/
def start (c : Char) (ts : List Token) : Option (Mode × List Token) :=
  if isSpace c then some (.outside, ts)
  else if c = '\x7b' then some (.outside, .openBrace :: ts)
  else if c = '\x7d' then some (.outside, .closeBrace :: ts)
  else if c = '[' then some (.outside, .openBracket :: ts)
  else if c = ']' then some (.outside, .closeBracket :: ts)
  else if c = ':' then some (.outside, .colon :: ts)
  else if c = ',' then some (.outside, .comma :: ts)
  else if c = '"' then some (.string [], ts)
  else if Text.isDigit c || c = '-' then some (.number [c], ts)
  else if inWord c then some (.word [c], ts)
  else none

/-- One character: the next mode, and the tokens so far, last first. -/
def step (c : Char) (ts : List Token) : Mode → Option (Mode × List Token)
  | .outside => start c ts
  | .word read =>
      if inWord c then some (.word (c :: read), ts)
      else (word? read.reverse).bind (start c <| · :: ts)
  | .number read =>
      if inNumber c then some (.number (c :: read), ts)
      else (number? read.reverse).bind (start c <| · :: ts)
  | .string read =>
      if c = '"' then some (.outside, .string (join read.reverse) :: ts)
      else if c = '\\' then some (.escape read, ts)
      else if c.toNat < 0x20 then none
      else some (.string (.char c :: read), ts)
  | .escape read =>
      if c = 'u' then some (.unit read 4 0, ts)
      else (escape? c).map fun d => (.string (.char d :: read), ts)
  | .unit read left value =>
      (hexValue? c).map fun d =>
        if left ≤ 1 then (.string (.unit (value * 16 + d) :: read), ts)
        else (.unit read (left - 1) (value * 16 + d), ts)

/-- The end of the text: all tokens in order, unless the text ends within one. -/
def finish (ts : List Token) : Mode → Option (List Token)
  | .outside => some ts.reverse
  | .word read => (word? read.reverse).map fun t => (t :: ts).reverse
  | .number read => (number? read.reverse).map fun t => (t :: ts).reverse
  | _ => none

/-- The tokens of the rest of a text. -/
def lex (mode : Mode) (ts : List Token) : List Char → Option (List Token)
  | [] => finish ts mode
  | c :: cs =>
      match step c ts mode with
      | none => none
      | some (mode, ts) => lex mode ts cs

def tokens? (cs : List Char) : Option (List Token) := lex .outside [] cs

example : tokens? "[1, -2.5e+3]".toList
    = some [.openBracket, .number "1".toList, .comma, .number "-2.5e+3".toList,
      .closeBracket] := by decide +kernel
example : tokens? "\"\\ud83d\\ude00\\ud83d\"".toList = some [.string none] := by decide +kernel

end Scanout.Json
