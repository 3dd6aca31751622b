import Scanout.Text.Blank

/-!
# Named choices

A command line offers some choices under a name each.  `choose?` finds the
choice a text names, in the exact spelling or, if asked, in any case of its
ASCII letters.
-/

namespace Scanout.Text

/-- The first choice whose name is the given text. -/
def choose? {α : Type} (choices : List (String × α)) (ignoreCase : Bool) (s : String) : Option α :=
  (choices.find? fun (name, _) =>
    if ignoreCase then sameLetters name.toList s.toList else name == s).map Prod.snd

example : choose? [("on", 1), ("off", 2)] false "OFF" = none := by decide
example : choose? [("on", 1), ("off", 2)] true "OFF" = some 2 := by decide +kernel

end Scanout.Text
