/-!
# White space

White space is the Unicode property `White_Space`: the twenty-five characters of
`isBlank`.  `trim` drops it from both ends of a text, and `trim_eq_self` says
that it drops nothing else.
-/

namespace Scanout.Text

/-- The character has the Unicode property `White_Space`. -/
def isBlank (c : Char) : Bool :=
  (9 ≤ c.val && c.val ≤ 13) || c.val == 0x20 || c.val == 0x85 || c.val == 0xa0 || c.val == 0x1680
    || (0x2000 ≤ c.val && c.val ≤ 0x200a) || c.val == 0x2028 || c.val == 0x2029 || c.val == 0x202f
    || c.val == 0x205f || c.val == 0x3000

/-- A text without the white space at its start. -/
def trimLeft (cs : List Char) : List Char := cs.dropWhile isBlank

/-- A text without the white space at its end. -/
def trimRight (cs : List Char) : List Char := (cs.reverse.dropWhile isBlank).reverse

/-- A text without the white space around it. -/
def trim (cs : List Char) : List Char := trimRight (trimLeft cs)

/-- A text without white space at its ends is left alone. -/
theorem trim_eq_self {cs : List Char} (hl : ∀ c ∈ cs.head?, isBlank c = false)
    (hr : ∀ c ∈ cs.getLast?, isBlank c = false) : trim cs = cs := by
  have drop_self : ∀ ds : List Char, (∀ c ∈ ds.head?, isBlank c = false) →
      ds.dropWhile isBlank = ds := by
    intro ds h
    cases ds with
    | nil => rfl
    | cons d ds => simp [h d (by simp)]
  have h1 : trimLeft cs = cs := drop_self cs hl
  rw [trim, h1, trimRight, drop_self cs.reverse (by simpa using hr), List.reverse_reverse]

/-- ASCII letters in lower case, all else unchanged. -/
def lower (cs : List Char) : List Char := cs.map Char.toLower

/-- Two texts agree up to the case of ASCII letters. -/
def sameLetters (cs ds : List Char) : Bool := lower cs == lower ds

/-- The number of bytes of a text in UTF-8. -/
def byteLength : List Char → Nat
  | [] => 0
  | c :: cs => c.utf8Size + byteLength cs

example : trim "\u2003 rgb\u0085\n".toList = "rgb".toList := by decide +kernel

end Scanout.Text
