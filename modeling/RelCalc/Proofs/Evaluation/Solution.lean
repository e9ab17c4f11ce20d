/-
  `Proofs.Evaluation.Solution`: the values that a run leaves.

  A run writes results over calls while it goes on, but no line that a call has
  read is written again.  So the final values satisfy the equations of all lines at
  once, and they are the only values that do.
-/
import RelCalc.Proofs.Evaluation.Soundness

set_option autoImplicit false

namespace RelCalc.Program

open Validation

/-- The listing has the text of its value on the line of a call. -/
theorem listing_of_call {catalog : Catalog} {commands : List Command} {slots : List Slot}
    {kinds : List Kind} {values : List Value} (h : Settles catalog commands slots kinds values)
    (hslots : slotsOf commands = .ok slots)
    (passes : commandKinds catalog [] commands = .ok kinds) {i : Nat} {command : Command}
    {value : Value} (found : commands[i]? = some command) (role : command.role? = some .call)
    (held : values[i]? = some value) :
    (listing ⟨settleAll slots values⟩)[i]? = some value.text := by
  obtain ⟨name, tokens, op, args, -⟩ := (commandKinds_eq_ok_iff.mp passes).2 i command found role
  obtain ⟨value', hvalue, -, hresult⟩ := h.exists_result hslots found role args
  obtain rfl : value = value' := Option.some.inj (held.symm.trans hvalue)
  rw [listing, List.getElem?_map, hresult]
  rfl

/-- **A run solves the equations of its program, uniquely.**  The values that the lines of an
accepted program hold after its run satisfy the equations of all lines; a call prints its value; and
any values that satisfy these equations are the final values of the run. -/
theorem run_solves_uniquely {commands : List Command}
    (accepted : validate Catalog.standard commands = .ok none) :
    ∃ (start done : Program) (values : List Value), ofCommands commands = .ok start ∧
      start.run Catalog.standard = (done, none) ∧
      done.slots.map Slot.value? = values.map some ∧
      Solves Catalog.standard commands values ∧
      (∀ (i : Nat) (command : Command) (value : Value), commands[i]? = some command →
        command.role? = some .call → values[i]? = some value →
          done.listing[i]? = some value.text) ∧
      ∀ solution : List Value, Solves Catalog.standard commands solution → solution = values := by
  obtain ⟨slots, kinds, values, hslots, passes, settles⟩ :=
    exists_settles_of_validate accepted
  refine ⟨⟨slots⟩, ⟨settleAll slots values⟩, values, ofCommands_of_slots hslots,
    settles.run_eq, settles.holds, settles.evaluates.solves, ?_, ?_⟩
  · intro i command value found role held
    exact listing_of_call settles hslots passes found role held
  · intro solution solves
    exact settles.evaluates.eq_of_solves solves

theorem run_solves_sampleCommands :
    validate Catalog.standard sampleCommands = .ok none ∧
      ∃ (start done : Program) (values : List Value), ofCommands sampleCommands = .ok start ∧
        start.run Catalog.standard = (done, none) ∧
        done.slots.map Slot.value? = values.map some ∧
        ∀ solution : List Value,
          Solves Catalog.standard sampleCommands solution → solution = values := by
  have accepted : validate Catalog.standard sampleCommands = .ok none := by decide +kernel
  obtain ⟨start, done, values, hstart, hrun, hvalues, -, -, unique⟩ := run_solves_uniquely accepted
  exact ⟨accepted, start, done, values, hstart, hrun, hvalues, unique⟩

end RelCalc.Program
