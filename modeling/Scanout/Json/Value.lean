import Scanout.Json.Token

/-!
# JSON values as runs of tokens

A value is kept as the run of its tokens.  `takeValue` splits a list of tokens
after its first value: it walks over the tokens with a stack of the open
brackets, so nesting may be of any depth.  `members?` and `items?` split an
object and an array into their parts, each part still a run of tokens.
-/

namespace Scanout.Json

/-! ## One value -/

/-- What may come next within a value. -/
inductive Expect where
  | value
  /-- A value, or the end of the array just opened. -/
  | firstItem
  /-- A key, or the end of the object just opened. -/
  | firstKey
  | key
  | colon
  /-- A comma, or the end of what is open. -/
  | separator
deriving DecidableEq, Repr

inductive Open where
  | array
  | object
deriving DecidableEq, Repr

/-- What a token does to a value under way: the brackets now open and what may
come next.  The value is complete when no bracket is open and a separator comes
next. -/
def advance (t : Token) (stack : List Open) : Expect → Option (List Open × Expect)
  | .value => begin t
  | .firstItem => if t = .closeBracket then some (stack.tail, .separator) else begin t
  | .firstKey =>
      match t with
      | .closeBrace => some (stack.tail, .separator)
      | .string _ => some (stack, .colon)
      | _ => none
  | .key =>
      match t with
      | .string _ => some (stack, .colon)
      | _ => none
  | .colon => if t = .colon then some (stack, .value) else none
  | .separator =>
      match stack, t with
      | .array :: _, .comma => some (stack, .value)
      | .array :: rest, .closeBracket => some (rest, .separator)
      | .object :: _, .comma => some (stack, .key)
      | .object :: rest, .closeBrace => some (rest, .separator)
      | _, _ => none
where
  /-- The first token of a value. -/
  begin : Token → Option (List Open × Expect)
    | .openBracket => some (.array :: stack, .firstItem)
    | .openBrace => some (.object :: stack, .firstKey)
    | .null => some (stack, .separator)
    | .bool _ => some (stack, .separator)
    | .number _ => some (stack, .separator)
    | .string _ => some (stack, .separator)
    | _ => none

/-- Split off the rest of a value under way.  `taken` holds its tokens so far,
last first. -/
def takeFrom (taken : List Token) (stack : List Open) (expect : Expect) :
    List Token → Option (List Token × List Token)
  | [] => none
  | t :: ts =>
      match advance t stack expect with
      | none => none
      | some ([], .separator) => some ((t :: taken).reverse, ts)
      | some (stack, expect) => takeFrom (t :: taken) stack expect ts

/-- Split a list of tokens after its first value. -/
def takeValue (ts : List Token) : Option (List Token × List Token) := takeFrom [] [] .value ts

/-! ## The parts of a value -/

/-- The members of an object after its opening brace, with what follows the
object.  A key must have a text.  The first argument bounds the number of
members. -/
def readMembers : Nat → List Token → Option (List (List Char × List Token) × List Token)
  | n + 1, .string (some key) :: .colon :: ts =>
      match takeValue ts with
      | some (value, .comma :: rest) =>
          (readMembers n rest).map fun (ms, rest) => ((key, value) :: ms, rest)
      | some (value, .closeBrace :: rest) => some ([(key, value)], rest)
      | _ => none
  | _, _ => none

/-- The items of an array after its opening bracket, with what follows the
array.  The first argument bounds the number of items. -/
def readItems : Nat → List Token → Option (List (List Token) × List Token)
  | n + 1, ts =>
      match takeValue ts with
      | some (value, .comma :: rest) => (readItems n rest).map fun (vs, rest) => (value :: vs, rest)
      | some (value, .closeBracket :: rest) => some ([value], rest)
      | _ => none
  | 0, _ => none

/-- The members of a document that is one object. -/
def members? : List Token → Option (List (List Char × List Token))
  | [.openBrace, .closeBrace] => some []
  | .openBrace :: ts =>
      match readMembers ts.length ts with
      | some (ms, []) => some ms
      | _ => none
  | _ => none

/-- The items of a document that is one array. -/
def items? : List Token → Option (List (List Token))
  | [.openBracket, .closeBracket] => some []
  | .openBracket :: ts =>
      match readItems ts.length ts with
      | some (vs, []) => some vs
      | _ => none
  | _ => none

example : ((tokens? "[[1, [\x7b\"a\": 2\x7d]], 3]".toList).bind items?).map List.length
    = some 2 := by
  decide +kernel
example : (tokens? "\x7b\"a\": 1, \x7d".toList).bind members? = none := by decide +kernel

end Scanout.Json
