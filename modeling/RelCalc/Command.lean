/-
  `Command`: one line of a program, split into words.

  The first word of a line says what the line is for; the words after it are its
  arguments.  Nothing about the content is judged here: a first word without a
  meaning is kept like any other, and so are arguments of any form.
-/
import RelCalc.Text.Quoted
import RelCalc.Text.Words

set_option autoImplicit false

namespace RelCalc

/-- What a line of a program is for. -/
inductive Role where
  /-- Declares the ground set, from which all elements are taken. -/
  | ground
  /-- Declares a set. -/
  | set
  /-- Declares a relation. -/
  | relation
  /-- Calls an operation on the values of earlier lines. -/
  | call
  deriving DecidableEq, Repr, Inhabited

namespace Role

/-- The letter a line of this role starts with. -/
def letter : Role → String
  | ground => "U"
  | set => "S"
  | relation => "R"
  | call => "C"

/-- The role that the first word of a line stands for. -/
def ofWord? : String → Option Role
  | "U" => some ground
  | "S" => some set
  | "R" => some relation
  | "C" => some call
  | _ => none

/-- Every role is read back from its letter. -/
@[simp] theorem ofWord?_letter (role : Role) : ofWord? role.letter = some role := by
  cases role <;> rfl

/-- A word that has a role is the letter of that role. -/
theorem eq_letter_of_ofWord? {word : String} {role : Role} (h : ofWord? word = some role) :
    word = role.letter := by
  unfold ofWord? at h
  split at h <;> cases h <;> rfl

end Role

/-- A line of a program: its first word, its arguments, and the number of the
line in the source text, if it comes from one. -/
structure Command where
  word : String
  args : List String
  line : Option Int
  deriving DecidableEq, Repr, Inhabited

namespace Command

/-- What the line is for, if its first word has a meaning. -/
def role? (c : Command) : Option Role := Role.ofWord? c.word

/-- Two commands are the same when they agree in all words; where they stand does not matter. -/
def same (c d : Command) : Bool := c.word = d.word && c.args = d.args

/-- The line that a command prints: all its words. -/
def text (c : Command) : String := Text.unwords (c.word :: c.args)

/-- The constructor text of a command. -/
def describe (c : Command) : String :=
  "Command(" ++ Text.quote c.word ++ ", " ++ Text.quoteList c.args ++ ", line=" ++
    (match c.line with
      | none => "None"
      | some n => toString n) ++ ")"

end Command

end RelCalc
