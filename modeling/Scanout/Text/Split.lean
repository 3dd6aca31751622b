/-!
# Splitting texts

`split` cuts a text at every place where a separator stands, and `split_ne_nil`
says that there is always at least one part.  `lines` cuts a text at its line
feeds, of which the last only ends the last line.  A carriage return before a
line feed belongs to the end of the line.
-/

namespace Scanout.Text

/-- The parts of a text between separators. -/
def split (separator : Char) : List Char → List (List Char)
  | [] => [[]]
  | c :: cs =>
      if c = separator then [] :: split separator cs
      else
        match split separator cs with
        | [] => [[c]]
        | part :: parts => (c :: part) :: parts

theorem split_ne_nil (separator : Char) (cs : List Char) : split separator cs ≠ [] := by
  cases cs with
  | nil => simp [split]
  | cons c cs =>
      rw [split]
      split
      · simp
      · split <;> simp

example : split '/' "a//b/".toList = ["a".toList, [], "b".toList, []] := by decide +kernel

/-- A line without the carriage return at its end. -/
def dropReturn (line : List Char) : List Char :=
  if line.getLast? = some '\r' then line.dropLast else line

/-- The lines of a text that was split at line feeds.  The last part is a line
unless it is empty. -/
def linesOfParts : List (List Char) → List (List Char)
  | [] => []
  | [part] => if part = [] then [] else [part]
  | part :: parts => dropReturn part :: linesOfParts parts

def lines (cs : List Char) : List (List Char) := linesOfParts (split '\n' cs)

example : lines "a\r\n\r\r\nb\r".toList = ["a".toList, ['\r'], ['b', '\r']] := by decide +kernel

end Scanout.Text
