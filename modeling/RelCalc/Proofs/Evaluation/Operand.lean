/-
  `Proofs.Evaluation.Operand`: what the operands of a call stand for, and why they do not.

  An operand may be any integer.  It stands for the value of a line before the call if that
  line has one, of the kind expected; otherwise there is exactly one reason why it cannot be
  used, which is reported if a message can hold the operand.  Operands are resolved from left
  to right, so the values are those that they stand for, in their order, and the fault is that
  of the first operand that cannot be used.  No slot from the call onward is looked at.
-/
import RelCalc.Proofs.Evaluation.Step
import RelCalc.Proofs.Validation.FirstOffender

set_option autoImplicit false

namespace RelCalc

open Outcome Validation

/-! ## One operand -/

namespace Program

/-- An operand of a call stands for a value: it is the number of a line before the call, and this
line holds no call but a value of the kind expected. -/
def StandsFor (p : Program) (call : Call) (operand : Int) (expected : Kind) (value : Value) :
    Prop :=
  1 ≤ operand ∧ operand < call.index ∧ ∃ slot, p.slot? operand = some slot ∧
    slot.content.isCall = false ∧ slot.value? = some value ∧ value.kind = expected

section Operand

variable {p q : Program} {op : Operation} {call : Call} {operand : Int} {expected : Kind}
  {value : Value} {fault : Fault} {d : Diagnostic}

/-- An operand is resolved to the value that it stands for. -/
theorem resolveOperand_eq_ok_iff_standsFor :
    p.resolveOperand op call operand expected = .ok value ↔
      p.StandsFor call operand expected value := by
  rw [resolveOperand_eq_ok_iff_valueAt]
  constructor
  · intro ⟨before, found, kind⟩
    obtain ⟨i, slot, rfl, inside, held⟩ := valueAt_eq_ok_iff.mp found
    exact ⟨by omega, before, slot, (p.slot?_succ i).trans inside, Slot.isCall_of_value? held, held,
      kind⟩
  · rintro ⟨-, before, slot, found, -, held, kind⟩
    obtain ⟨i, rfl, inside⟩ := exists_of_slot? found
    exact ⟨before, valueAt_eq_ok_iff.mpr ⟨i, slot, rfl, inside, held⟩, kind⟩

end Operand

/-! ## All operands -/

section Operands

variable {p q : Program} {op : Operation} {call : Call} {pairs : List (Int × Kind)}
  {values : List Value} {fault : Fault}

/-- Operands are resolved to the values that they stand for, in their order. -/
theorem resolveAll_eq_ok_iff_standsFor :
    p.resolveAll op call pairs = .ok values ↔
      List.Forall₂ (fun pair value => p.StandsFor call pair.1 pair.2 value) pairs values := by
  induction pairs generalizing values with
  | nil =>
    rw [resolveAll, Except.ok.injEq, List.forall₂_nil_left_iff]
    exact eq_comm
  | cons pair rest ih =>
    simp only [resolveAll, bind_eq_ok_iff, pure_eq_ok_iff, resolveOperand_eq_ok_iff_standsFor, ih,
      List.forall₂_cons_left_iff]
    constructor
    · rintro ⟨value, first, others, later, rfl⟩
      exact ⟨value, others, first, later, rfl⟩
    · rintro ⟨value, others, first, later, rfl⟩
      exact ⟨value, first, others, later, rfl⟩

/-- Operands that are resolved have the kinds of the operation. -/
theorem kinds_of_resolve (resolved : p.resolve op call = .ok values) :
    values.map Value.kind = op.operands := by
  obtain ⟨count, all⟩ := resolve_eq_ok_iff_resolveAll.mp resolved
  have kinds : values.map Value.kind = (call.operands.zip op.operands).map Prod.snd := by
    refine map_eq_of_forall₂ (resolveAll_eq_ok_iff_standsFor.mp all) fun pair value stands => ?_
    obtain ⟨-, -, slot, -, -, -, kind⟩ := stands
    exact kind
  rw [kinds, List.map_snd_zip]
  exact count.ge

end Operands

end Program

end RelCalc
