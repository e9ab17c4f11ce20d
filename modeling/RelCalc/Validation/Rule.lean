/-
  `Validation.Rule`: the rules a command list must keep.

  There are ten rules.  Seven are about the shape of the list: how long it is,
  that the ground set is declared once and first, that declarations come before
  calls, that there are both.  The others are about content: the elements of the
  ground set, the declared sets and relations, and the calls.  A rule is a check
  that passes or says what is wrong at the first place where something is.
-/
import RelCalc.Catalog
import RelCalc.Command
import RelCalc.Text.Numeral
import RelCalc.Validation.Repeat

set_option autoImplicit false

namespace RelCalc.Validation

/-- The rules. -/
inductive Rule where
  /-- The list is not empty and not too long. -/
  | size
  /-- The ground set is declared exactly once. -/
  | oneGround
  /-- Every command has a role. -/
  | knownRoles
  /-- The ground set comes first and no declaration comes after a call. -/
  | order
  /-- There is a call. -/
  | hasCall
  /-- A set or a relation is declared. -/
  | hasDeclaration
  /-- There are commands of two roles. -/
  | twoRoles
  /-- The elements of the ground set are short words that mean nothing else. -/
  | groundElements
  /-- Declared sets and relations consist of elements of the ground set, without repeats. -/
  | declaredElements
  /-- Calls name an operation and give it earlier lines of the right kinds. -/
  | calls
  deriving DecidableEq, Repr, Inhabited

namespace Rule

/-- All rules, in the order in which they are checked. -/
def all : List Rule :=
  [size, oneGround, knownRoles, order, hasCall, hasDeclaration, twoRoles, groundElements,
   declaredElements, calls]

/-- The name of a rule. -/
def name : Rule → String
  | size => "size"
  | oneGround => "single_universe"
  | knownRoles => "command_kinds"
  | order => "ordering"
  | hasCall => "has_invocation"
  | hasDeclaration => "has_declaration"
  | twoRoles => "distinct_kinds"
  | groundElements => "universe_elements"
  | declaredElements => "declared_elements"
  | calls => "invocations"

/-- The rule that a name means. -/
def ofName? (name : String) : Option Rule := all.find? fun rule => rule.name = name

theorem mem_all (rule : Rule) : rule ∈ all := by cases rule <;> decide

end Rule

/-! ## Where a violation is -/

/-- Commands with their positions, counted from one. -/
abbrev Numbered : Type := List (Command × Nat)

/-- The commands of a list with their positions. -/
def number (commands : List Command) : Numbered := commands.zipIdx 1

/-- A violation by the list as a whole. -/
def violation (cause : Cause) : Except Fault Unit := .error (.diagnostic ⟨cause, none, none⟩)

/-- A violation by a command on a line, at a position. -/
def violationOn (cause : Cause) (line : Option Int) (position : Nat) : Except Fault Unit :=
  .error (.diagnostic ⟨cause, line, some position⟩)

/-- A violation by the command at a position. -/
def violationAt (cause : Cause) (commands : List Command) (position : Nat) : Except Fault Unit :=
  violationOn cause (commands[position - 1]?.bind Command.line) position

/-- The positions of the commands of a role. -/
def positionsOf (role : Role) (commands : List Command) : List Nat :=
  ((number commands).filter fun entry => entry.1.role? = some role).map Prod.snd

/-! ## Shape -/

/-- The list is not empty and not too long. -/
def checkSize (commands : List Command) : Except Fault Unit :=
  if commands = [] then violation .noCommands
  else if maxCommands < commands.length then
    violationAt (.tooManyCommands commands.length) commands (maxCommands + 1)
  else .ok ()

/-- The ground set is declared exactly once. -/
def checkOneGround (commands : List Command) : Except Fault Unit :=
  match positionsOf .ground commands with
  | [] => violation .noGround
  | [_] => .ok ()
  | first :: second :: rest =>
      violationAt (.manyGrounds (first :: second :: rest).length) commands second

/-- Every command has a role. -/
def checkKnownRoles (commands : List Command) : Except Fault Unit :=
  match (number commands).find? fun entry => entry.1.role? = none with
  | none => .ok ()
  | some (command, position) => violationAt (.unknownWord command.word) commands position

/-- No command after the first call has another role. -/
def checkLateDeclarations (commands : List Command) : Except Fault Unit :=
  match positionsOf .call commands with
  | [] => .ok ()
  | firstCall :: _ =>
      match (number commands).find? fun entry =>
          firstCall < entry.2 && decide (entry.1.role? ≠ some .call) with
      | none => .ok ()
      | some (command, position) =>
          match command.role? with
          | none => .error .noRoleLetter
          | some role => violationAt (.lateDeclaration role.letter firstCall) commands position

/-- The ground set comes first and no declaration comes after a call. -/
def checkOrder (commands : List Command) : Except Fault Unit :=
  match commands with
  | [] => .error .emptyList
  | first :: _ =>
      if first.role? = some .ground then checkLateDeclarations commands
      else violationAt .groundNotFirst commands 1

/-- There is a call. -/
def checkHasCall (commands : List Command) : Except Fault Unit :=
  if commands.any fun command => command.role? = some .call then .ok () else violation .noCall

/-- A role that declares a set or a relation. -/
def declares (role : Option Role) : Bool := role = some .set || role = some .relation

/-- A set or a relation is declared. -/
def checkHasDeclaration (commands : List Command) : Except Fault Unit :=
  if commands.any fun command => declares command.role? then .ok () else violation .noDeclaration

/-- There are commands of two roles.  Commands without a role count as having one of their own. -/
def checkTwoRoles (commands : List Command) : Except Fault Unit :=
  if (FinSet.ofList (commands.map Command.role?)).size < 2 then violation .oneRole else .ok ()

/-! ## Elements -/

/-- The words for the two truth values. -/
def boolLiterals : List String := ["true", "false"]

/-- A non-empty word of ASCII letters. -/
def isLetters (word : String) : Bool := !word.toList.isEmpty && word.toList.all Char.isAlpha

/-- What is wrong with an element of the ground set, given the elements before it. -/
def elementDefect? (catalog : Catalog) (before : List Element) (element : Element) :
    Option ElementDefect :=
  if maxElementLength < element.toList.length then some .tooLong
  else if !isLetters element then some .notLetters
  else if element ∈ boolLiterals then some .boolLiteral
  else if element ∈ catalog.names then some .operationName
  else if element ∈ before then some .declaredTwice
  else none

/-- The first element with a defect. -/
def firstDefect? (catalog : Catalog) (before : List Element) :
    List Element → Option (Element × ElementDefect)
  | [] => none
  | element :: rest =>
      match elementDefect? catalog before element with
      | some defect => some (element, defect)
      | none => firstDefect? catalog (before ++ [element]) rest

/-- The elements of the ground set are short words that mean nothing else. -/
def checkGroundElements (catalog : Catalog) (commands : List Command) : Except Fault Unit :=
  match commands with
  | [] => .error .emptyList
  | ground :: _ =>
      match firstDefect? catalog [] ground.args with
      | none => .ok ()
      | some (element, defect) => violationOn (.groundElement element defect) ground.line 1

/-- What is wrong with the arguments of a declaration of a set. -/
def setDefect? (args : List Element) : Option Cause := (firstRepeated? args).map .repeatedElement

/-- What is wrong with the arguments of a declaration of a relation. -/
def relationDefect? (args : List Element) : Option Cause :=
  match Relation.pairUp? args with
  | none => some (.halfPair args.length)
  | some pairs => (firstRepeated? pairs).map .repeatedPair

/-- What is wrong with a declaration, given the ground set. -/
def declarationDefect? (ground : List Element) (command : Command) : Option Cause :=
  if !declares command.role? then none
  else
    match command.args.find? fun element => element ∉ ground with
    | some element => some (.foreignElement element)
    | none =>
        if command.role? = some .set then setDefect? command.args
        else relationDefect? command.args

/-- Each of the numbered commands has no defect; the first that has one is reported. -/
def checkEach (defect? : Command → Option Cause) : Numbered → Except Fault Unit
  | [] => .ok ()
  | (command, position) :: rest =>
      match defect? command with
      | some cause => violationOn cause command.line position
      | none => checkEach defect? rest

/-- Declared sets and relations consist of elements of the ground set, without repeats. -/
def checkDeclaredElements (commands : List Command) : Except Fault Unit :=
  match commands with
  | [] => .error .emptyList
  | ground :: _ => checkEach (declarationDefect? ground.args) (number commands)

/-! ## Calls -/

/-- An operand of a call is the index of an earlier line, and that line holds the kind
the operation expects; the first operand also has the kind the operation works on.  A
number with too many digits is no diagnostic. -/
def checkOperand (kinds : List Kind) (op : Operation) (name : String) (report : Cause → Fault)
    (position : Nat) (token : String) (expected : Kind) : Except Fault Unit :=
  match Text.readNatural token with
  | .error (.tooLong digits) => .error (.tooManyDigits digits)
  | .error .malformed => .error (report (.operandNotIndex position name token))
  | .ok target =>
      if target = 0 then .error (report (.operandNotIndex position name token))
      else
        match kinds[target - 1]? with
        | none => .error (report (.operandNotEarlier position name target))
        | some actual =>
            if position = 1 ∧ actual ≠ op.level then
              .error (report (.operandLevel name op.level target actual))
            else if actual ≠ expected then
              .error (report (.operandKind position name expected target actual))
            else .ok ()

/-- The operands of a call, from left to right. -/
def checkOperands (kinds : List Kind) (op : Operation) (name : String)
    (report : Cause → Fault) : Nat → List (String × Kind) → Except Fault Unit
  | _, [] => .ok ()
  | position, (token, expected) :: rest => do
      checkOperand kinds op name report position token expected
      checkOperands kinds op name report (position + 1) rest

/-- The kind of the value a call will give, given the kinds of the lines before it. -/
def callKind (catalog : Catalog) (kinds : List Kind) (command : Command) : Except Fault Kind :=
  let report (cause : Cause) : Fault := .diagnostic ⟨cause, command.line, some (kinds.length + 1)⟩
  match command.args with
  | [] => .error (report .namelessCall)
  | name :: tokens =>
      match catalog.find? name with
      | none => .error (report (.unknownOperation name))
      | some op =>
          if op.arity ≠ tokens.length then .error (report (.arity name op.arity tokens.length))
          else do
            checkOperands kinds op name report 1 (tokens.zip op.operands)
            return op.result

/-- The kind of the value a command will hold, given the kinds of the lines before it. -/
def commandKind (catalog : Catalog) (kinds : List Kind) (command : Command) :
    Except Fault Kind :=
  match command.role? with
  | none => .error .noRoleKind
  | some .ground | some .set => .ok .set
  | some .relation => .ok .relation
  | some .call => callKind catalog kinds command

/-- The kinds of the values that commands will hold, one after the other. -/
def commandKinds (catalog : Catalog) (kinds : List Kind) :
    List Command → Except Fault (List Kind)
  | [] => .ok kinds
  | command :: rest => do
      let kind ← commandKind catalog kinds command
      commandKinds catalog (kinds ++ [kind]) rest

/-- Calls name an operation and give it earlier lines of the right kinds. -/
def checkCalls (catalog : Catalog) (commands : List Command) : Except Fault Unit := do
  let _ ← commandKinds catalog [] commands
  return ()

/-! ## All rules -/

/-- Check one rule. -/
def Rule.check (catalog : Catalog) (commands : List Command) : Rule → Except Fault Unit
  | size => checkSize commands
  | oneGround => checkOneGround commands
  | knownRoles => checkKnownRoles commands
  | order => checkOrder commands
  | hasCall => checkHasCall commands
  | hasDeclaration => checkHasDeclaration commands
  | twoRoles => checkTwoRoles commands
  | groundElements => checkGroundElements catalog commands
  | declaredElements => checkDeclaredElements commands
  | calls => checkCalls catalog commands

end RelCalc.Validation
