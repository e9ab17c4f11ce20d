/-
  `Diagnostic`: what is wrong with a program, and where.

  A diagnostic names its cause, the source line and the position of the command
  it is about.  Each cause has a category, the word of the rule it breaks, and a
  message; all wording is in this module.
-/
import RelCalc.Value
import RelCalc.Text.Blank

set_option autoImplicit false

namespace RelCalc

/-- The families of diagnostics. -/
inductive Category where
  /-- Any diagnostic at all. -/
  | general
  /-- The text cannot be split into words. -/
  | malformed
  /-- A command list that breaks a rule. -/
  | invalid
  /-- The shape of the command list breaks a rule. -/
  | structural
  /-- The content of a command breaks a rule. -/
  | semantic
  /-- A call names an operation that does not exist. -/
  | unknownOperation
  /-- A call has the wrong number of operands. -/
  | arity
  /-- A call cannot be evaluated. -/
  | evaluation
  /-- An operand of a call has no usable value. -/
  | unresolved
  deriving DecidableEq, Repr, Inhabited

namespace Category

/-- The wider families of a category, the nearest first. -/
def ancestors : Category → List Category
  | general => []
  | malformed => [general]
  | invalid => [general]
  | structural => [invalid, general]
  | semantic => [invalid, general]
  | unknownOperation => [invalid, general]
  | arity => [invalid, general]
  | evaluation => [general]
  | unresolved => [evaluation, general]

end Category

/-- What can be wrong with an element of the ground set. -/
inductive ElementDefect where
  | tooLong
  | notLetters
  | boolLiteral
  | operationName
  | declaredTwice
  deriving DecidableEq, Repr, Inhabited

/-- The most commands a program may have. -/
def maxCommands : Nat := 1000

/-- The most characters an element of the ground set may have. -/
def maxElementLength : Nat := 30

namespace ElementDefect

/-- How a message goes on after the element. -/
def reason : ElementDefect → String
  | tooLong => "is longer than " ++ toString maxElementLength ++ " characters"
  | notLetters => "contains characters other than letters"
  | boolLiteral => "is a boolean literal"
  | operationName => "is the name of an operation"
  | declaredTwice => "is declared twice"

end ElementDefect

/-- Why a diagnostic is given. -/
inductive Cause where
  /-- A character that no word, gap or comment can start with. -/
  | misplaced (c : Char) (line column : Nat)
  /-- The command list is empty. -/
  | noCommands
  /-- The command list is too long. -/
  | tooManyCommands (count : Nat)
  /-- No command declares the ground set. -/
  | noGround
  /-- Several commands declare the ground set. -/
  | manyGrounds (count : Nat)
  /-- The first word of a command has no meaning. -/
  | unknownWord (word : String)
  /-- The first command does not declare the ground set. -/
  | groundNotFirst
  /-- A declaration comes after the first call. -/
  | lateDeclaration (letter : String) (firstCall : Nat)
  /-- There is no call. -/
  | noCall
  /-- There is no declaration of a set or a relation. -/
  | noDeclaration
  /-- All commands have the same role. -/
  | oneRole
  /-- An element of the ground set has a defect. -/
  | groundElement (element : Element) (defect : ElementDefect)
  /-- A declaration uses an element that is not in the ground set. -/
  | foreignElement (element : Element)
  /-- A relation is declared with an odd number of components. -/
  | halfPair (count : Nat)
  /-- A set declaration repeats an element. -/
  | repeatedElement (element : Element)
  /-- A relation declaration repeats a pair. -/
  | repeatedPair (pair : Element × Element)
  /-- A call names no operation. -/
  | namelessCall
  /-- A call names an operation that the catalog does not have. -/
  | unknownOperation (name : String)
  /-- A call has the wrong number of operands. -/
  | arity (name : String) (expected actual : Int)
  /-- An operand is not a positive line index. -/
  | operandNotIndex (position : Nat) (name token : String)
  /-- An operand refers to the call itself or to a later line. -/
  | operandNotEarlier (position : Nat) (name : String) (target : Nat)
  /-- The first operand has another kind than the operation works on. -/
  | operandLevel (name : String) (level : Kind) (target : Nat) (actual : Kind)
  /-- An operand has another kind than the operation expects. -/
  | operandKind (position : Nat) (name : String) (expected : Kind) (target : Nat) (actual : Kind)
  /-- A slot that is to be overwritten holds no call. -/
  | notUnevaluated (index : Int)
  /-- A call that is evaluated names an operation that the catalog does not have. -/
  | noSuchOperation (name : String)
  /-- A call that is evaluated has the wrong number of operands. -/
  | operandCount (name : String) (expected actual : Nat)
  /-- A line index is not one of the program's. -/
  | outOfRange (index : Int) (count : Nat)
  /-- A line holds a call that has no value yet. -/
  | noValueYet (index : Int)
  /-- An operand of a call that is evaluated refers to no earlier line. -/
  | notBefore (operand : Int) (index : Nat)
  /-- An operand of a call that is evaluated has another kind than the operation expects. -/
  | valueKind (name : String) (expected : Kind) (operand : Int) (actual : Kind)
  /-- A cause that a caller states in full. -/
  | stated (category : Category) (rule message : String)
  deriving DecidableEq, Repr, Inhabited

namespace Cause

/-- The family a cause belongs to. -/
def category : Cause → Category
  | misplaced .. => .malformed
  | noCommands | tooManyCommands _ | noGround | manyGrounds _ | unknownWord _ | groundNotFirst
  | lateDeclaration .. | noCall | noDeclaration | oneRole => .structural
  | groundElement .. | foreignElement _ | halfPair _ | repeatedElement _ | repeatedPair _
  | namelessCall | operandNotIndex .. | operandNotEarlier .. | operandLevel ..
  | operandKind .. => .semantic
  | unknownOperation _ => .unknownOperation
  | arity .. => .arity
  | notUnevaluated _ | noSuchOperation _ | operandCount .. => .evaluation
  | outOfRange .. | noValueYet _ | notBefore .. | valueKind .. => .unresolved
  | stated category _ _ => category

/-- The word for the rule that is broken. -/
def rule : Cause → String
  | misplaced .. => "parse"
  | noCommands | tooManyCommands _ => "size"
  | noGround | manyGrounds _ => "single-universe"
  | unknownWord _ => "command-kind"
  | groundNotFirst | lateDeclaration .. => "ordering"
  | noCall => "has-invocation"
  | noDeclaration => "has-declaration"
  | oneRole => "distinct-kinds"
  | groundElement .. => "universe-element"
  | foreignElement _ | halfPair _ | repeatedElement _ | repeatedPair _ => "set-element"
  | namelessCall | unknownOperation _ => "operation"
  | arity .. => "arity"
  | operandNotIndex .. | operandNotEarlier .. | operandLevel .. | operandKind .. => "operand"
  | notUnevaluated _ | noSuchOperation _ | operandCount .. => "evaluation"
  | outOfRange .. | noValueYet _ | notBefore .. | valueKind .. => "unresolved-operand"
  | stated _ rule _ => rule

/-- The message for a misplaced character.  A character that ends a line ends the message too. -/
def misplacedMessage (c : Char) (line column : Nat) : String :=
  let start := "Malformed line: No terminal matches '"
  if Text.isLineBoundary c then start
  else start ++ String.singleton c ++ "' in the current parser context, at line " ++
    toString line ++ " col " ++ toString column

/-- The message for an element with a defect. -/
def groundElementMessage (element : Element) (defect : ElementDefect) : String :=
  "Universe element '" ++ element ++ "' " ++ defect.reason ++ "."

/-- The message for a wrong number of operands. -/
def arityMessage (name : String) (expected actual : Int) : String :=
  s!"Operation '{name}' expects {expected} operand(s), but got {actual}."

/-- The message for an operation that does not exist. -/
def unknownOperationMessage (name : String) : String := s!"Unknown operation '{name}'."

/-- The message for a line index that is not one of the program's. -/
def outOfRangeMessage (index : Int) (count : Nat) : String :=
  s!"Line {index} is out of range 1..{count}."

/-- The message of a cause. -/
def message : Cause → String
  | misplaced c line column => misplacedMessage c line column
  | noCommands => "The program contains no commands."
  | tooManyCommands count =>
      s!"The program contains {count} commands, at most {maxCommands} are allowed."
  | noGround => "No universe is declared."
  | manyGrounds count => s!"The universe is declared {count} times."
  | unknownWord word => s!"Unknown command kind '{word}'."
  | groundNotFirst => "The universe must be declared by the first command."
  | lateDeclaration letter firstCall =>
      s!"Declaration '{letter}' after the first command at position {firstCall}."
  | noCall => "The program contains no command."
  | noDeclaration =>
      "The program must contain at least two distinct command kinds: " ++
        "no set or relation is declared."
  | oneRole => "The program must contain at least two distinct command kinds."
  | groundElement element defect => groundElementMessage element defect
  | foreignElement element => s!"Element '{element}' is not in the universe."
  | halfPair count => s!"A relation must consist of pairs, but got {count} elements."
  | repeatedElement element => s!"Element {element} is repeated."
  | repeatedPair pair => "Element (" ++ pair.1 ++ " " ++ pair.2 ++ ") is repeated."
  | namelessCall => "The command names no operation."
  | unknownOperation name => unknownOperationMessage name
  | arity name expected actual => arityMessage name expected actual
  | operandNotIndex position name token =>
      s!"Operand {position} of '{name}' must be a positive line index, but got '{token}'."
  | operandNotEarlier position name target =>
      s!"Operand {position} of '{name}' refers to line {target}, " ++
        "which does not precede the command."
  | operandLevel name level target actual =>
      s!"'{name}' is a " ++ level.name ++ s!" operation, but line {target} holds a " ++
        actual.name ++ "."
  | operandKind position name expected target actual =>
      s!"Operand {position} of '{name}' must be a " ++ expected.name ++
        s!", but line {target} holds a " ++ actual.name ++ "."
  | notUnevaluated index => s!"Line {index} is not an unevaluated command."
  | noSuchOperation name => unknownOperationMessage name
  | operandCount name expected actual => arityMessage name expected actual
  | outOfRange index count => outOfRangeMessage index count
  | noValueYet index => s!"Line {index} has not produced a value yet."
  | notBefore operand index => s!"Line {operand} does not precede line {index}."
  | valueKind name expected operand actual =>
      s!"Operation '{name}' expects a " ++ expected.name ++ s!" at line {operand}, but got a " ++
        actual.name ++ "."
  | stated _ _ message => message

end Cause

/-- A cause, the source line it is about, and the position of the command it is about. -/
structure Diagnostic where
  cause : Cause
  line : Option Int
  index : Option Int
  deriving DecidableEq, Repr, Inhabited

namespace Diagnostic

/-- The message of a diagnostic. -/
def message (d : Diagnostic) : String := d.cause.message

/-- The word for the rule that is broken. -/
def rule (d : Diagnostic) : String := d.cause.rule

/-- The place a diagnostic points at: the name of the source, with the line if there is one. -/
def location (d : Diagnostic) (source : String) : String :=
  match d.line with
  | none => source
  | some line => s!"{source}:{line}"

/-- The one line that reports a diagnostic. -/
def report (d : Diagnostic) (source : String) : String :=
  d.location source ++ ": " ++ d.rule ++ ": " ++ d.message

end Diagnostic

end RelCalc
