import Scanout.Error

/-!
# Words of a command line

A command line is a list of words.  A word that starts with two dashes names a
flag, whose value is attached after an equals sign or is the next word.  A word
with one dash is a group of one-letter flags, of which there is only the request
for help.  Two dashes alone end the flags, and any other word is an operand or
names a subcommand.

A `Level` says which flags, operands and subcommands are known, and `Level.read`
sorts the words by it.  A flag may be given once, and its value must make sense.
The next word is not taken for a value if it looks like a flag, unless the flag
before it allows that, as those do whose value may be a negative number.

Words are judged in order, and the first fault or request for help decides.  A
value that is a word of its own is judged when the word after it has been
recognised, so it does not matter before the subcommand for help.
-/

namespace Scanout.CommandLine

/-! ## What is known -/

structure Flag where
  /-- Its name, without dashes. -/
  name : String
  valued : Bool := true
  /-- Its value may look like a flag. -/
  dashes : Bool := false
  /-- A value makes sense. -/
  accepts : String → Bool := fun _ => true

/-- What is known at one level of a command line. -/
structure Level where
  flags : List Flag
  /-- How many operands there may be. -/
  operands : Nat := 0
  /-- The subcommands.  The words after a subcommand are a level of their own. -/
  commands : List String := []

/-- The name of the flag that asks for help, and of the subcommand. -/
def helpName : String := "help"

/-- The flag that asks for help. -/
def helpFlag : Flag := { name := helpName, valued := false }

/-- The letter that asks for help. -/
def helpLetter : Char := 'h'

/-- Why a command line is not carried out. -/
inductive Refusal where
  | help
  /-- It makes no sense. -/
  | misuse
deriving DecidableEq, Repr

def Level.flag? (l : Level) (name : String) : Option Flag :=
  (helpFlag :: l.flags).find? fun f => f.name == name

/-! ## Single words -/

/-- What a word looks like. -/
inductive Word where
  /-- The end of the flags. -/
  | separator
  /-- A flag, and its value if that is attached. -/
  | long (name : String) (value : Option String)
  /-- A group of one-letter flags, by its first letter. -/
  | short (letter : Char)
  /-- Any other word. -/
  | plain
deriving DecidableEq, Repr

/-- The name in a word for a flag, and the value after the equals sign. -/
def splitAttached (cs : List Char) : String × Option String :=
  (String.ofList (cs.takeWhile (· != '=')),
    match cs.dropWhile (· != '=') with
    | [] => none
    | _ :: value => some (String.ofList value))

/-- What a word looks like. -/
def Word.ofString (s : String) : Word :=
  match s.toList with
  | ['-', '-'] => .separator
  | '-' :: '-' :: cs => .long (splitAttached cs).1 (splitAttached cs).2
  | '-' :: c :: _ => .short c
  | _ => .plain

/-! ## Lists of words -/

/-- The flags and operands that were given at a level. -/
structure Given where
  /-- The flags with their values, in order.  A flag without a value has an
  empty one. -/
  flags : List (String × String) := []
  operands : List String := []
deriving DecidableEq, Repr

namespace Given

def value? (g : Given) (name : String) : Option String := g.flags.lookup name

/-- A flag was given. -/
def has (g : Given) (name : String) : Bool := (g.value? name).isSome

/-- With one more flag, which must be new and whose value must make sense. -/
def addFlag (g : Given) (f : Flag) (value : String) : Except Refusal Given :=
  if g.has f.name || !f.accepts value then .error .misuse
  else .ok { g with flags := g.flags ++ [(f.name, value)] }

/-- With one more operand, for which there must be room. -/
def addOperand (g : Given) (l : Level) (operand : String) : Except Refusal Given :=
  if g.operands.length < l.operands then .ok { g with operands := g.operands ++ [operand] }
  else .error .misuse

end Given

/-- What is known of the words so far. -/
structure Reading where
  /-- The flags and operands that were judged. -/
  given : Given := {}
  /-- The last flag and its value, if that is still to be judged. -/
  pending : Option (Flag × String) := none

/-- All that was given, when the last value is judged. -/
def Reading.settle (r : Reading) : Except Refusal Given :=
  match r.pending with
  | none => .ok r.given
  | some (f, value) => r.given.addFlag f value

/-- What the words after the subcommand for help come to.  They may name one of
the subcommands. -/
def Level.helpAbout (l : Level) : List String → Refusal
  | [] => .help
  | [name] => if name = helpName || l.commands.contains name then .help else .misuse
  | _ => .misuse

/-- Sort words, after those that were read already.  Yields also the subcommand,
if one was found, and the words after it. -/
def Level.read (l : Level) :
    List String → Reading → Except Refusal (Given × Option (String × List String))
  | [], r => return (← r.settle, none)
  | w :: ws, r =>
      match Word.ofString w with
      | .separator => do
          return (← ws.foldlM (fun g operand => g.addOperand l operand) (← r.settle), none)
      | .short letter => do
          let _ ← r.settle
          throw (if letter = helpLetter then .help else .misuse)
      | .long name attached =>
          match l.flag? name, attached with
          | none, _ => .error .misuse
          | some f, some value =>
              if f.valued then do l.read ws ⟨← (← r.settle).addFlag f value, none⟩
              else .error .misuse
          | some f, none =>
              if f.valued then
                match ws with
                | [] => .error .misuse
                | value :: ws =>
                    if f.dashes || Word.ofString value == .plain then do
                      l.read ws ⟨← r.settle, some (f, value)⟩
                    else .error .misuse
              else do
                let g ← r.settle
                if f.name = helpName then throw .help else l.read ws ⟨← g.addFlag f "", none⟩
      | .plain =>
          if l.commands.contains w then return (← r.settle, some (w, ws))
          else if !l.commands.isEmpty && w = helpName then .error (l.helpAbout ws)
          else do l.read ws ⟨← (← r.settle).addOperand l w, none⟩

/-- A level for tests. -/
private def sample : Level where
  flags := [{ name := "size", accepts := (· != "") }, { name := "shift", dashes := true },
    { name := "fast", valued := false }]
  operands := 1

example : sample.read ["--shift", "-3", "a", "--fast", "--size=x"] {}
    = .ok (⟨[("shift", "-3"), ("fast", ""), ("size", "x")], ["a"]⟩, none) := by
  decide +kernel
example : sample.read ["--size=", "--help"] {} = .error .misuse
    ∧ sample.read ["--help", "--size="] {} = .error .help := by
  decide +kernel

end Scanout.CommandLine
