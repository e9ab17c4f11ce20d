/-
  `Program.Step`: what can be asked of a program, one request after the other.

  A step reads a program or changes it, and gives an answer or a fault.  A step
  that fails leaves the program as it was; only a run that stops midway keeps the
  results it has already written, and a result stays that cannot be reported.  So
  a session is a sequence of steps over one program; it ends early at a fault that
  leaves the program without a listing.
-/
import RelCalc.Program.Evaluation

set_option autoImplicit false

namespace RelCalc.Program

/-- A request to a program. -/
inductive Step where
  /-- The number of lines. -/
  | size
  /-- The printed text. -/
  | text
  /-- All slots. -/
  | slots
  /-- The slot of a line. -/
  | slot (index : Int)
  /-- The value of a line, asked for from a source line. -/
  | valueAt (index : Int) (line : Option Int)
  /-- All lines that have a value. -/
  | registry
  /-- All lines that hold calls. -/
  | calls
  /-- The value of the first line. -/
  | ground
  /-- Overwrite a call with a value. -/
  | replace (index : Int) (value : Value)
  /-- Evaluate a call. -/
  | evaluate (index : Int)
  /-- Resolve the operands of a call. -/
  | resolve (index : Int)
  /-- Overwrite the operands of a call. -/
  | setOperands (index : Int) (operands : List Int)
  /-- Evaluate all calls. -/
  | run
  deriving Inhabited

/-- What a step answers. -/
inductive Answer where
  | count (n : Nat)
  | text (content : String)
  | slots (entries : List Slot)
  | slot (entry : Slot)
  | value (v : Option Value)
  | registry (entries : List (Nat × Value))
  | indices (entries : List Nat)
  | values (vs : List Value)
  deriving Inhabited

/-- The slot of a line as an answer. -/
def slotAnswer (p : Program) (index : Int) : Except Fault Answer := do
  let slot ← p.slot index
  return .slot slot

/-- The operands of the call in a line, resolved for the operation it names. -/
def resolveAt (p : Program) (catalog : Catalog) (index : Int) : Except Fault (List Value) := do
  let name ← p.nameAt index
  let op ← catalog.lookup name
  let call ← p.callAt index
  p.resolve op call

/-- The answer of a step that only reads. -/
def read (p : Program) (catalog : Catalog) : Step → Except Fault Answer
  | .size => .ok (.count p.size)
  | .text => if p.isSpelled then .ok (.text p.text) else .error .notSpelled
  | .slots => .ok (.slots p.slots)
  | .slot index => p.slotAnswer index
  | .valueAt index line => (p.valueAt index line).map fun value => .value (some value)
  | .registry => .ok (.registry p.registry)
  | .calls => .ok (.indices p.calls)
  | .ground => p.ground.map .value
  | .resolve index => (p.resolveAt catalog index).map .values
  | .replace index _ => p.slotAnswer index
  | .evaluate index => p.slotAnswer index
  | .setOperands index _ => p.slotAnswer index
  | .run => .ok (.count p.size)

/-- The program after a change that may end early, with what the step then answers. -/
def change (catalog : Catalog) (step : Step) (result : Except Interruption Program) :
    Program × Except Fault Answer :=
  match result with
  | .ok next => (next, next.read catalog step)
  | .error stopped => (stopped.program, .error stopped.fault)

/-- One step: the program after it, and its answer. -/
def step (p : Program) (catalog : Catalog) (request : Step) : Program × Except Fault Answer :=
  match request with
  | .replace index value => change catalog request (p.replace index value)
  | .evaluate index => change catalog request (p.evaluate catalog index)
  | .setOperands index operands =>
      change catalog request (p.attempt (p.setOperands index operands))
  | .run =>
      match p.run catalog with
      | (done, none) => (done, done.read catalog request)
      | (stopped, some fault) => (stopped, .error fault)
  | _ => (p, p.read catalog request)

/-- A sequence of steps: the program after all of them, and their answers. -/
def steps (catalog : Catalog) : List Step → Program → Program × List (Except Fault Answer)
  | [], p => (p, [])
  | request :: rest, p =>
      let (next, answer) := p.step catalog request
      let (last, answers) := steps catalog rest next
      (last, answer :: answers)

end RelCalc.Program
