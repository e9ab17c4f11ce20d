/-
  `Program.Evaluation`: calls turned into results.

  Evaluating a call looks its operation up, resolves its operands to values,
  applies the operation and overwrites the call.  Whatever fails, fails before
  anything is written, except for the report of the result.  Running a program
  evaluates its calls from the first to the last and stops at the first that
  fails; results already written stay.
-/
import RelCalc.Program.Basic
import RelCalc.Source.Reader
import RelCalc.Validation.Verdict

set_option autoImplicit false

namespace RelCalc.Program

/-- A call in its place: what is called, from which line of the program and of the source. -/
structure Call where
  name : String
  operands : List Int
  line : Option Int
  index : Nat
  deriving DecidableEq, Repr, Inhabited

/-- A diagnostic about a call. -/
def Call.refuse {α : Type} (call : Call) (cause : Cause) : Except Fault α :=
  .error (.diagnostic ⟨cause, call.line, some call.index⟩)

/-- The call in a line.  A line that holds no call lacks a name or operands. -/
def callAt (p : Program) (index : Int) : Except Fault Call := do
  let slot ← p.slot index
  match slot.content with
  | .call name operands => .ok ⟨name, operands, slot.line, slot.index⟩
  | .result .. => .error (.noField slot.content.typeName "operands")
  | content => .error (.noField content.typeName "name")

/-- The name of the operation that a line calls or has called. -/
def nameAt (p : Program) (index : Int) : Except Fault String := do
  let slot ← p.slot index
  match slot.content with
  | .call name _ => .ok name
  | .result name _ => .ok name
  | content => .error (.noField content.typeName "name")

/-- The value of one operand: it must stand before the call and have the kind expected. -/
def resolveOperand (p : Program) (op : Operation) (call : Call) (operand : Int)
    (expected : Kind) : Except Fault Value :=
  if (call.index : Int) ≤ operand then
    if Text.isSpelled operand then call.refuse (.notBefore operand call.index)
    else .error .notSpelled
  else do
    let value ← p.valueAt operand call.line
    if value.kind = expected then return value
    else call.refuse (.valueKind op.name expected operand value.kind)

/-- The values of operands, from left to right. -/
def resolveAll (p : Program) (op : Operation) (call : Call) :
    List (Int × Kind) → Except Fault (List Value)
  | [] => .ok []
  | (operand, expected) :: rest => do
      let value ← p.resolveOperand op call operand expected
      let values ← p.resolveAll op call rest
      return value :: values

/-- The values that a call passes to an operation. -/
def resolve (p : Program) (op : Operation) (call : Call) : Except Fault (List Value) :=
  if call.operands.length ≠ op.arity then
    call.refuse (.operandCount op.name op.arity call.operands.length)
  else p.resolveAll op call (call.operands.zip op.operands)

/-- The value of a call. -/
def compute (p : Program) (catalog : Catalog) (call : Call) : Except Fault Value :=
  match catalog.find? call.name with
  | none => call.refuse (.noSuchOperation call.name)
  | some op => do
      let operands ← p.resolve op call
      let ground ← p.ground
      op.apply ground operands

/-- Evaluate a call and overwrite it with its result. -/
def evaluateCall (p : Program) (catalog : Catalog) (call : Call) : Except Interruption Program := do
  let value ← p.attempt (p.compute catalog call)
  p.replace call.index value

/-- Evaluate a line.  Of a line that is a result already, only the operation is looked up. -/
def evaluate (p : Program) (catalog : Catalog) (index : Int) : Except Interruption Program := do
  let slot ← p.attempt (p.slot index)
  match slot.content with
  | .result name _ =>
      match catalog.find? name with
      | none => throw ⟨p, .diagnostic ⟨.noSuchOperation name, slot.line, some index⟩⟩
      | some _ => throw ⟨p, .noField slot.content.typeName "operands"⟩
  | _ => do
      let call ← p.attempt (p.callAt index)
      p.evaluateCall catalog call

/-- Evaluate some lines in order, up to the first that fails. -/
def runLines (catalog : Catalog) : List Nat → Program → Program × Option Fault
  | [], p => (p, none)
  | index :: rest, p =>
      match p.evaluate catalog index with
      | .error stopped => (stopped.program, some stopped.fault)
      | .ok next => runLines catalog rest next

/-- Evaluate all calls in order, up to the first that fails. -/
def run (p : Program) (catalog : Catalog) : Program × Option Fault :=
  runLines catalog p.calls p

/-- Evaluate all calls; a fault in one of them is the outcome. -/
def evaluateAll (p : Program) (catalog : Catalog) : Except Fault Program :=
  match p.run catalog with
  | (done, none) => .ok done
  | (_, some fault) => .error fault

/-- Read a text, check it, and make it a program. -/
def load (text : String) : Except Fault Program := do
  let commands ← Source.read text
  Validation.check Catalog.standard commands
  ofCommands commands

end RelCalc.Program

namespace RelCalc

/-- Read, check and evaluate a text: the lines it prints. -/
def runText (text : String) : Except Fault (List String) := do
  let program ← Program.load text
  let done ← program.evaluateAll Catalog.standard
  return done.listing

end RelCalc
