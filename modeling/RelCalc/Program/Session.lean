/-
  `Program.Session`: a program with the registry it keeps.

  The registry of a program, its lines that have a value with their values, is made
  when it is first needed and kept from then on: overwriting a call notes the result
  in it and does not make it again.  A session is a program together with the registry
  it keeps, if there is one yet.  Queries go through it as the steps of a program do,
  and a query that fails may have made the registry before it failed.
-/
import RelCalc.Program.Step

set_option autoImplicit false

namespace RelCalc

/-- A program and the registry it keeps, once that has been made. -/
structure Session where
  program : Program
  registry? : Option (List (Nat × Value))
  deriving DecidableEq, Inhabited

/-- A query to a session: it gives an answer or a fault, and leaves a session. -/
abbrev Query (α : Type) := ExceptT Fault (StateM Session) α

namespace Session

/-- A session with a program that nobody has asked anything yet. -/
def fresh (p : Program) : Session := ⟨p, none⟩

/-- The registry with a value noted for a line, in the order of the lines. -/
def note (index : Nat) (value : Value) : List (Nat × Value) → List (Nat × Value)
  | [] => [(index, value)]
  | (line, held) :: rest =>
      if index < line then (index, value) :: (line, held) :: rest
      else if index = line then (index, value) :: rest
      else (line, held) :: note index value rest

/-- Ask the program; the registry plays no part. -/
def ask {α : Type} (question : Program → Except Fault α) : Query α :=
  fun s => (question s.program, s)

/-- Overwrite the program, unless that fails; the registry stays as it is. -/
def overwrite (change : Program → Except Fault Program) : Query Unit := do
  let next ← ask change
  modify fun s => { s with program := next }

/-- The registry, made if there is none yet. -/
def registry : Query (List (Nat × Value)) := do
  let s ← get
  match s.registry? with
  | some entries => return entries
  | none =>
      set { s with registry? := some s.program.registry }
      return s.program.registry

/-- The value of a line, looked up in the registry. -/
def valueAt (index : Int) (line : Option Int) : Query Value := do
  match ← ask fun p => .ok (p.slot? index) with
  | none =>
      if Text.isSpelled index then
        ask fun p => .error (.diagnostic ⟨.outOfRange index p.size, line, some index⟩)
      else throw .notSpelled
  | some slot =>
      let entries ← registry
      match entries.lookup index.toNat with
      | none => throw (.diagnostic ⟨.noValueYet index, line.or slot.line, some index⟩)
      | some value => return value

/-- Overwrite a call with its result, note the result in the registry, and report it. -/
def replace (index : Int) (value : Value) : Query Unit := do
  let reported ← ask fun p => .ok (p.reports index value)
  overwrite fun p => p.write index value
  let entries ← registry
  modify fun s => { s with registry? := some (note index.toNat value entries) }
  if reported then return else throw .notSpelled

/-- The value of one operand: it must stand before the call and have the kind expected. -/
def resolveOperand (op : Operation) (call : Program.Call) (operand : Int) (expected : Kind) :
    Query Value :=
  if (call.index : Int) ≤ operand then
    if Text.isSpelled operand then ask fun _ => call.refuse (.notBefore operand call.index)
    else throw .notSpelled
  else do
    let value ← valueAt operand call.line
    if value.kind = expected then return value
    else ask fun _ => call.refuse (.valueKind op.name expected operand value.kind)

/-- The values of operands, from left to right. -/
def resolveAll (op : Operation) (call : Program.Call) : List (Int × Kind) → Query (List Value)
  | [] => return []
  | (operand, expected) :: rest => do
      let value ← resolveOperand op call operand expected
      let values ← resolveAll op call rest
      return value :: values

/-- The values that a call passes to an operation. -/
def resolve (op : Operation) (call : Program.Call) : Query (List Value) :=
  if call.operands.length ≠ op.arity then
    ask fun _ => call.refuse (.operandCount op.name op.arity call.operands.length)
  else resolveAll op call (call.operands.zip op.operands)

/-- The operands of the call in a line, resolved for the operation it names. -/
def resolveAt (catalog : Catalog) (index : Int) : Query (List Value) := do
  let name ← ask fun p => p.nameAt index
  let op ← ask fun _ => catalog.lookup name
  let call ← ask fun p => p.callAt index
  resolve op call

/-- The value of a call. -/
def compute (catalog : Catalog) (call : Program.Call) : Query Value :=
  match catalog.find? call.name with
  | none => ask fun _ => call.refuse (.noSuchOperation call.name)
  | some op => do
      let operands ← resolve op call
      let ground ← ask Program.ground
      ask fun _ => op.apply ground operands

/-- Evaluate a call and overwrite it with its result. -/
def evaluateCall (catalog : Catalog) (call : Program.Call) : Query Unit := do
  let value ← compute catalog call
  replace call.index value

/-- Evaluate a line.  Of a line that is a result already, only the operation is looked up. -/
def evaluate (catalog : Catalog) (index : Int) : Query Unit := do
  let slot ← ask fun p => p.slot index
  match slot.content with
  | .result name _ =>
      match catalog.find? name with
      | none => throw (.diagnostic ⟨.noSuchOperation name, slot.line, some index⟩)
      | some _ => throw (.noField slot.content.typeName "operands")
  | _ => do
      let call ← ask fun p => p.callAt index
      evaluateCall catalog call

/-- Go through some lines and evaluate those that hold a call when their turn comes. -/
def runLines (catalog : Catalog) : List Nat → Query Unit
  | [] => return
  | index :: rest => do
      if index ∈ (← ask fun p => .ok p.calls) then evaluate catalog index
      runLines catalog rest

/-- Evaluate all calls in order, up to the first that fails. -/
def run (catalog : Catalog) : Query Unit := do
  let count ← ask fun p => .ok p.size
  runLines catalog (List.range' 1 count)

/-- What a step asks of a session. -/
def query (catalog : Catalog) : Program.Step → Query Program.Answer
  | .valueAt index line => do
      let value ← valueAt index line
      return .value (some value)
  | .registry => do
      let entries ← registry
      return .registry entries
  | .resolve index => do
      let values ← resolveAt catalog index
      return .values values
  | .replace index value => do
      replace index value
      ask fun p => p.slotAnswer index
  | .evaluate index => do
      evaluate catalog index
      ask fun p => p.slotAnswer index
  | .setOperands index operands => do
      overwrite fun p => p.setOperands index operands
      ask fun p => p.slotAnswer index
  | .run => do
      run catalog
      ask fun p => .ok (.count p.size)
  | request => ask fun p => p.read catalog request

/-- One step: the session after it, and its answer. -/
def step (s : Session) (catalog : Catalog) (request : Program.Step) :
    Session × Except Fault Program.Answer :=
  let (answer, next) := query catalog request s
  (next, answer)

end Session

end RelCalc
