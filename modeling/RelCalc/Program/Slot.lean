/-
  `Program.Slot`: what a line of a program holds.

  A slot holds a declaration, a call, or the result of a call.  Declarations and
  results have a value that later calls can refer to; a call has none until it is
  evaluated.  A slot keeps the line of the program it was made for, and the source
  line of the command it was made from.
-/
import RelCalc.Command
import RelCalc.Fault
import RelCalc.Text.Numeral

set_option autoImplicit false

namespace RelCalc

/-- The content of a slot. -/
inductive Content where
  /-- The declaration of the ground set. -/
  | ground (elements : FinSet Element)
  /-- The declaration of a set. -/
  | set (elements : FinSet Element)
  /-- The declaration of a relation. -/
  | relation (pairs : Relation)
  /-- A call that has not been evaluated: the name of its operation and its operands. -/
  | call (name : String) (operands : List Int)
  /-- The result of a call, with the name of its operation. -/
  | result (name : String) (value : Value)
  deriving DecidableEq, Inhabited

namespace Content

/-- The value of a content, if it has one. -/
def value? : Content → Option Value
  | ground elements => some (.set elements)
  | set elements => some (.set elements)
  | relation pairs => some (.relation pairs)
  | call _ _ => none
  | result _ value => some value

/-- The line that a call prints. -/
def callText (name : String) (operands : List Int) : String :=
  Text.unwords (Role.call.letter :: name :: operands.map toString)

/-- The line that a content prints. -/
def text : Content → String
  | ground elements => letterLine Role.ground.letter elements.body
  | set elements => letterLine Role.set.letter elements.body
  | relation pairs => letterLine Role.relation.letter (Relation.body pairs)
  | call name operands => callText name operands
  | result _ value => value.text

/-- A content is spelled by its line, unless a number in it needs too many digits. -/
def isSpelled : Content → Bool
  | call _ operands => operands.all Text.isSpelled
  | result _ value => value.isSpelled
  | ground _ | set _ | relation _ => true

/-- The word for the type of a content. -/
def typeName : Content → String
  | ground _ => "UniverseDecl"
  | set _ => "SetDecl"
  | relation _ => "RelationDecl"
  | call _ _ => "Invocation"
  | result _ _ => "Result"

/-- The content is a call. -/
def isCall : Content → Bool
  | call _ _ => true
  | _ => false

/-- Only a call has no value. -/
theorem value?_eq_none_iff (content : Content) : content.value? = none ↔ content.isCall = true := by
  cases content <;> simp [value?, isCall]

end Content

/-- A slot of a program: the line it was made for, the source line it comes from, and its
content. -/
structure Slot where
  index : Nat
  line : Option Int
  content : Content
  deriving DecidableEq, Inhabited

namespace Slot

/-- The value of a slot, if it has one. -/
def value? (slot : Slot) : Option Value := slot.content.value?

/-- A slot that has a value holds no call. -/
theorem isCall_of_value? {slot : Slot} {value : Value} (held : slot.value? = some value) :
    slot.content.isCall = false := by
  rw [Bool.eq_false_iff, ne_eq, ← Content.value?_eq_none_iff, ← Slot.value?, held]
  exact Option.some_ne_none value

/-- The line that a slot prints. -/
def text (slot : Slot) : String := slot.content.text

/-- A slot is spelled by its line if its content is. -/
def isSpelled (slot : Slot) : Bool := slot.content.isSpelled

/-- A slot for inspection: its type, its index and its line. -/
def describe (slot : Slot) : String :=
  slot.content.typeName ++ "(" ++ toString slot.index ++ ": " ++ slot.text ++ ")"

end Slot

/-- Read an operand that nobody has checked. -/
def readOperand (token : String) : Except Fault Int :=
  match Text.readInteger token with
  | .ok n => .ok n
  | .error .malformed => .error (.notANumber token)
  | .error (.tooLong digits) => .error (.tooManyDigits digits)

/-- Read the arguments of a call: the name of an operation, then operands. -/
def readCall : List String → Except Fault Content
  | [] => .error .emptyList
  | name :: tokens => do
      let operands ← tokens.mapM readOperand
      return .call name operands

/-- The content that a command declares or calls for. -/
def Command.content (command : Command) : Except Fault Content :=
  match command.role? with
  | some .ground => .ok (.ground (FinSet.ofList command.args))
  | some .set => .ok (.set (FinSet.ofList command.args))
  | some .relation =>
      match Relation.ofFlat? command.args with
      | some pairs => .ok (.relation pairs)
      | none => .error (.halfPair command.args.length)
  | some .call => readCall command.args
  | none => .error (.unknownWord command.word)

/-- The slot that a command becomes in a line of a program. -/
def Command.slot (command : Command) (index : Nat) : Except Fault Slot := do
  let content ← command.content
  return ⟨index, command.line, content⟩

end RelCalc
