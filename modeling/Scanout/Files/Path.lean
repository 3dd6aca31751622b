import Scanout.Text.Split

/-!
# Paths

A path is a text.  Slashes cut it into parts: parts that are empty, or a single
dot, name the directory they stand in, two dots name the directory above, and
any other part names an entry.  `Path.split` keeps all of them, since a trailing
slash says that the path must lead to a directory.

There are two ways to take the end off a path.  `Path.last` is the way of an
operation that creates, replaces or removes an entry: trailing slashes aside,
dots at the end are a part of their own.  `Path.parent?` is the way of one who
reads the text: dots that name the directory they stand in do not count, but for
one at the very start.
-/

namespace Scanout.Path

/-! ## Parts -/

/-- The parts of a path. -/
def split (path : String) : List String := (Text.split '/' path.toList).map String.ofList

/-- The path of several parts. -/
def ofParts (parts : List String) : String := "/".intercalate parts

/-- The path starts at the root of all files. -/
def isAbsolute (path : String) : Bool := path.toList.head? == some '/'

/-- The path ends in a slash. -/
def endsInSlash (path : String) : Bool := path.toList.getLast? == some '/'

/-- The text has a character that no path has. -/
def hasZero (path : String) : Bool := path.toList.contains '\x00'

/-- The part names the directory it stands in. -/
def isHere (part : String) : Bool := part == "" || part == "."

/-- Parts without those at the end that name the directory they stand in. -/
def trimmed (parts : List String) : List String := (parts.reverse.dropWhile isHere).reverse

/-- One path after the other.  The first does not matter if the second starts at
the root. -/
def join (directory path : String) : String :=
  if isAbsolute path then path
  else if directory = "" ∨ endsInSlash directory then directory ++ path
  else directory ++ "/" ++ path

/-! ## The end of a path -/

/-- What stands at the end of a path. -/
inductive Last where
  /-- Nothing: the path is the root. -/
  | root
  /-- A dot: the directory it stands in. -/
  | here
  /-- Two dots: the directory above. -/
  | above
  | name (name : String)
deriving DecidableEq, Repr

/-- What a part at the end of a path means. -/
def Last.ofPart (part : String) : Last :=
  if part = "." then .here else if part = ".." then .above else .name part

/-- The parts of a path before its last, and the last.  Slashes at the end do
not count. -/
def last (path : String) : List String × Last :=
  match (split path).reverse.dropWhile (· == "") with
  | [] => ([], .root)
  | part :: parts => (parts.reverse, .ofPart part)

/-- The path of the directory that holds the entry a path names.  It is empty
for a single part, and there is none for the root. -/
def parent? (path : String) : Option String :=
  match split path with
  | [] => none
  | first :: rest =>
      match trimmed rest with
      | [] => if first = "" then none else some ""
      | rest =>
          match first, trimmed rest.dropLast with
          | "", [] => some "/"
          | first, rest => some (ofParts (first :: rest))

example : parent? "x.json" = some "" ∧ parent? "/x" = some "/" ∧ parent? "/." = none
    ∧ parent? "./x" = some "." := by
  decide +kernel

/-- The path of the directory in which a path's entry is made. -/
def directory (path : String) : String :=
  match parent? path with
  | none => "."
  | some p => if p = "" then "." else p

example : directory "./a/../x.json" = "./a/.." ∧ directory "a/.//b/." = "a"
    ∧ directory "" = "." := by
  decide +kernel

/-- A path and the paths of the directories above it, at most so many, without
the root and the empty path. -/
def upwards : Nat → String → List String
  | 0, _ => []
  | n + 1, path =>
      if path = "" then []
      else
        match parent? path with
        | none => []
        | some parent => path :: upwards n parent

/-- A path and the paths of the directories above it, without the root and the
empty path. -/
def ancestors (path : String) : List String := upwards (split path).length path

end Scanout.Path
