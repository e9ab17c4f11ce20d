/-
  `Source.Reader`: the commands of a program text.

  The lexemes of a text fall into lines; a line without words is skipped, and
  every other line is one command.  So the commands keep the order of the text
  and know the line they were written on.
-/
import RelCalc.Command
import RelCalc.Source.Lexeme

set_option autoImplicit false

namespace RelCalc.Source

/-- The words of each line, with the number of the line they stand on. -/
def wordLines : List Lexeme → List (List (Nat × List Char))
  | [] => [[]]
  | .lineEnd :: rest => [] :: wordLines rest
  | .word line letters :: rest =>
      match wordLines rest with
      | [] => [[(line, letters)]]
      | words :: later => ((line, letters) :: words) :: later

/-- The command on a line with at least one word. -/
def commandOfWords? : List (Nat × List Char) → Option Command
  | [] => none
  | (line, letters) :: rest =>
      some ⟨String.ofList letters, rest.map fun word => String.ofList word.2, some line⟩

/-- The commands that a list of lexemes spells. -/
def commandsOf (lexemes : List Lexeme) : List Command :=
  (wordLines lexemes).filterMap commandOfWords?

/-- The commands of a text, or the first misplaced character in it. -/
def read (text : String) : Except Fault (List Command) :=
  (lexemes text.toList).map commandsOf

/-- The text that prints a list of commands, one on each line. -/
def print (commands : List Command) : String := Text.unlines (commands.map Command.text)

end RelCalc.Source
