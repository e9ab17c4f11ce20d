/-
  `Program.Basic`: a program as a row of slots.

  The lines of a program are numbered from one, and calls refer to earlier lines
  by their number.  Slots are never added, removed or moved; a call can be
  overwritten with its result, once.  Everything else that can be asked of a
  program, its values, its open calls, its listing, is read off the slots.
  A message or a line that would hold a number with too many digits is a fault
  of its own, and the report of a result is such a message.
-/
import RelCalc.Program.Slot

set_option autoImplicit false

namespace RelCalc

/-- A program: its slots, the first line first. -/
structure Program where
  slots : List Slot
  deriving DecidableEq, Inhabited

namespace Program

/-- The slots of a command list, each made for its line. -/
def slotsOf (commands : List Command) : Except Fault (List Slot) :=
  (commands.zipIdx 1).mapM fun entry => entry.1.slot entry.2

/-- The program of a command list.  The first command that makes no slot is a fault. -/
def ofCommands (commands : List Command) : Except Fault Program := do
  let slots ← slotsOf commands
  return ⟨slots⟩

/-- The number of lines. -/
def size (p : Program) : Nat := p.slots.length

/-- The slot of a line, if there is such a line. -/
def slot? (p : Program) (index : Int) : Option Slot :=
  if 1 ≤ index then p.slots[index.toNat - 1]? else none

/-- The slot of a line; any other index is a fault, which names the index if a message can. -/
def slot (p : Program) (index : Int) : Except Fault Slot :=
  match p.slot? index with
  | some slot => .ok slot
  | none => .error (if Text.isSpelled index then .noSlot index p.size else .notSpelled)

/-- The value of the first line, which declares the ground set. -/
def ground (p : Program) : Except Fault (Option Value) :=
  match p.slots with
  | [] => .error .emptyList
  | first :: _ => .ok first.value?

/-- The indexes of the slots that have a value, with their values. -/
def registry (p : Program) : List (Nat × Value) :=
  p.slots.filterMap fun slot => slot.value?.map (slot.index, ·)

/-- The indexes of the slots that hold calls. -/
def calls (p : Program) : List Nat :=
  (p.slots.filter fun slot => slot.content.isCall).map Slot.index

/-- The value of a line.  The given source line is where the one who asks stands; it
goes into the diagnostic if there is no value. -/
def valueAt (p : Program) (index : Int) (line : Option Int) : Except Fault Value :=
  match p.slot? index with
  | none =>
      -- an index inside the program is short, so no other message needs this test
      if Text.isSpelled index then .error (.diagnostic ⟨.outOfRange index p.size, line, some index⟩)
      else .error .notSpelled
  | some slot =>
      match slot.value? with
      | none => .error (.diagnostic ⟨.noValueYet index, line.or slot.line, some index⟩)
      | some value => .ok value

/-- The program with another slot in a line. -/
def setSlot (p : Program) (index : Int) (slot : Slot) : Program :=
  ⟨p.slots.set (index.toNat - 1) slot⟩

/-- Write the result of a call over the call. -/
def write (p : Program) (index : Int) (value : Value) : Except Fault Program := do
  let slot ← p.slot index
  match slot.content with
  | .call name _ => .ok (p.setSlot index ⟨index.toNat, slot.line, .result name value⟩)
  | _ => .error (.diagnostic ⟨.notUnevaluated index, slot.line, some index⟩)

/-- A result that is written over a line is reported with the line before and after it; the
report needs both to be spelled. -/
def reports (p : Program) (index : Int) (value : Value) : Bool :=
  ((p.slot? index).all Slot.isSpelled) && value.isSpelled

/-- A change of a program that ends early, with what it has made of the program. -/
structure Interruption where
  program : Program
  fault : Fault
  deriving DecidableEq, Inhabited

/-- A computation whose failure leaves the program as it is. -/
def attempt {α : Type} (p : Program) (result : Except Fault α) : Except Interruption α :=
  result.mapError fun fault => ⟨p, fault⟩

/-- Overwrite a call with its result, and report it.  A report that fails comes too late: the
result is already written. -/
def replace (p : Program) (index : Int) (value : Value) : Except Interruption Program := do
  let next ← p.attempt (p.write index value)
  if p.reports index value then return next else throw ⟨next, .notSpelled⟩

/-- Overwrite the operands of a call.  No other line has operands. -/
def setOperands (p : Program) (index : Int) (operands : List Int) : Except Fault Program := do
  let slot ← p.slot index
  match slot.content with
  | .call name _ => .ok (p.setSlot index ⟨slot.index, slot.line, .call name operands⟩)
  | content => .error (.noField content.typeName "operands")

/-- The lines that a program prints. -/
def listing (p : Program) : List String := p.slots.map Slot.text

/-- The text that a program prints. -/
def text (p : Program) : String := Text.unlines p.listing

/-- A program is spelled by its text if every line is. -/
def isSpelled (p : Program) : Bool := p.slots.all Slot.isSpelled

end Program

end RelCalc
