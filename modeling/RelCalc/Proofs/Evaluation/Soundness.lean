/-
  `Proofs.Evaluation.Soundness`: accepted programs run to the end.

  What validation accepts becomes a program, and over a well-typed catalog this
  program is run without any fault, unless a call gives a number of so many digits
  that its result cannot be reported: afterwards every call is a result of the kind
  that its operation gives.  The standard operations give no such numbers.
-/
import RelCalc.Proofs.Evaluation.Spelled
import RelCalc.Proofs.Validation.Grammar

set_option autoImplicit false

namespace RelCalc.Program

open Outcome Validation

section Accepted

variable {catalog : Catalog} {commands : List Command}

theorem groundFirst_of_checkOrder (h : checkOrder commands = .ok ()) : GroundFirst commands := by
  intro command found
  have first := (checkOrder_eq_ok_iff.mp h).1
  rw [found, Option.bind_some] at first
  exact first

/-- Operands of calls that pass the check are numbers. -/
theorem readableCalls_of_commandKinds {kinds : List Kind}
    (h : commandKinds catalog [] commands = .ok kinds) : ReadableCalls commands := by
  intro command member role
  obtain ⟨i, found⟩ := List.getElem?_of_mem member
  obtain ⟨name, tokens, op, args, -, fits⟩ := (commandKinds_eq_ok_iff.mp h).2 i command found role
  exact ⟨name, tokens, args, fits.numbers⟩

/-- An accepted list of commands becomes a program. -/
theorem exists_slots_of_validate (accepted : validate catalog commands = .ok none) :
    ∃ slots kinds, slotsOf commands = .ok slots ∧ commandKinds catalog [] commands = .ok kinds ∧
      GroundFirst commands := by
  obtain ⟨shape, -, declared, checked⟩ := check_eq_ok_iff.mp (validate_eq_none_iff.mp accepted)
  obtain ⟨kinds, passes, -⟩ := bind_eq_ok_iff.mp checked
  have known := checkKnownRoles_eq_ok_iff.mp shape.known_roles
  obtain ⟨slots, hslots⟩ := exists_slots known declared (readableCalls_of_commandKinds passes)
  exact ⟨slots, kinds, hslots, passes, groundFirst_of_checkOrder shape.order⟩

/-- Over the standard catalog, the lines of an accepted list can be run. -/
theorem exists_settles_of_validate (accepted : validate Catalog.standard commands = .ok none) :
    ∃ slots kinds values, slotsOf commands = .ok slots ∧
      commandKinds Catalog.standard [] commands = .ok kinds ∧
        Settles Catalog.standard commands slots kinds values := by
  obtain ⟨slots, kinds, hslots, passes, -⟩ := exists_slots_of_validate accepted
  obtain ⟨shape, elements, declared, -⟩ := check_eq_ok_iff.mp (validate_eq_none_iff.mp accepted)
  obtain ⟨ground, rest, rfl, takes⟩ := exists_takesFrom shape declared
  obtain ⟨values, settles⟩ :=
    exists_settles takes (size_lt_of_checkGroundElements elements) hslots passes
  exact ⟨slots, kinds, values, hslots, passes, settles⟩

theorem ofCommands_of_slots {slots : List Slot} (h : slotsOf commands = .ok slots) :
    ofCommands commands = .ok ⟨slots⟩ := ofCommands_eq_ok_iff.mpr h

end Accepted

/-! ## Runs of accepted programs -/

/-- A program made from commands is run to the end: no call is left, and each call has become a
result of the kind that its operation gives. -/
structure RunsThrough (catalog : Catalog) (commands : List Command) (start done : Program) :
    Prop where
  run : start.run catalog = (done, none)
  size : done.slots.length = commands.length
  settled : ∀ slot ∈ done.slots, slot.content.isCall = false
  results : ∀ (i : Nat) (command : Command), commands[i]? = some command →
    command.role? = some .call → ∃ name tokens op value, command.args = name :: tokens ∧
      catalog.find? name = some op ∧
      done.slots[i]? = some ⟨i + 1, command.line, .result name value⟩ ∧ value.kind = op.result

/-- A program made from commands is run up to line `k`, which holds a call: its result is a number
of too many digits and has been written, so that only the report of it has failed.  The calls before
it have become results that can be reported, and the lines behind it are as they were. -/
structure StopsUnspelled (catalog : Catalog) (commands : List Command) (start : Program) (k : Nat)
    (stopped : Program) : Prop where
  stops : start.StopsAt catalog k stopped .notSpelled
  written : ∃ i command name tokens op number, k = i + 1 ∧ commands[i]? = some command ∧
    command.role? = some .call ∧ command.args = name :: tokens ∧ catalog.find? name = some op ∧
    stopped.slots[i]? = some ⟨k, command.line, .result name (.int number)⟩ ∧ op.result = .int ∧
    Text.isSpelled number = false
  earlier : ∀ (i : Nat) (command : Command), i + 1 < k → commands[i]? = some command →
    command.role? = some .call → ∃ name tokens op value, command.args = name :: tokens ∧
      catalog.find? name = some op ∧
      stopped.slots[i]? = some ⟨i + 1, command.line, .result name value⟩ ∧
      value.kind = op.result ∧ value.isSpelled = true
  later : ∀ i : Nat, k ≤ i → stopped.slots[i]? = start.slots[i]?

section Runs

variable {catalog : Catalog} {commands : List Command} {slots : List Slot} {kinds : List Kind}
  {values : List Value}

/-- The slot of a call holds a result that can be reported, of the kind that its operation gives. -/
theorem Settles.exists_result_of_kind (h : Settles catalog commands slots kinds values)
    (hslots : slotsOf commands = .ok slots) (passes : commandKinds catalog [] commands = .ok kinds)
    {i : Nat} {command : Command} (found : commands[i]? = some command)
    (role : command.role? = some .call) :
    ∃ name tokens op value, command.args = name :: tokens ∧ catalog.find? name = some op ∧
      (settleAll slots values)[i]? = some ⟨i + 1, command.line, .result name value⟩ ∧
      value.kind = op.result ∧ value.isSpelled = true := by
  obtain ⟨statics, fits⟩ := commandKinds_eq_ok_iff.mp passes
  obtain ⟨name, tokens, op, args, hop, -⟩ := fits i command found role
  obtain ⟨value, hvalue, hkind, hresult⟩ := h.exists_result hslots found role args
  refine ⟨name, tokens, op, value, args, hop, hresult, ?_,
    h.spelled value (List.mem_of_getElem? hvalue)⟩
  -- The kind that the check found for this line is the static one, the result kind.
  have static : (commands.map (staticKind? catalog))[i]? = some (some value.kind) := by
    rw [statics, List.getElem?_map, hkind]
    rfl
  rw [List.getElem?_map, found] at static
  simpa [staticKind?, role, args, hop] using static.symm

/-- Settled lines are those that a run to the end leaves. -/
theorem Settles.runsThrough (h : Settles catalog commands slots kinds values)
    (hslots : slotsOf commands = .ok slots)
    (passes : commandKinds catalog [] commands = .ok kinds) :
    RunsThrough catalog commands ⟨slots⟩ ⟨settleAll slots values⟩ := by
  refine ⟨h.run_eq, ?_, fun slot member => h.isCall_of_mem member, fun i command found role => ?_⟩
  · rw [length_settleAll h.length_eq, h.length_eq]
    exact h.evaluates.length_eq
  · obtain ⟨name, tokens, op, value, args, known, result, kind, -⟩ :=
      h.exists_result_of_kind hslots passes found role
    exact ⟨name, tokens, op, value, args, known, result, kind⟩

/-- A value that has too many digits stops the run. -/
theorem Exceeds.exists_stopsUnspelled (h : Exceeds catalog commands slots) :
    ∃ k stopped, StopsUnspelled catalog commands ⟨slots⟩ k stopped := by
  obtain @⟨earlier, later, command, before, after, kinds, kind, values, name, operands, value,
    rfl, rfl, made, checked, settles, role, passes, computes, unreported⟩ := h
  have length := length_slotsOf made
  have settled := length_settleAll settles.length_eq
  refine ⟨before.length + 1, _, settles.stopsAt_of_unspelled computes unreported after, ?_, ?_, ?_⟩
  · obtain ⟨name', tokens, op, args, found, -, rfl⟩ := callKind_eq_ok_iff.mp passes
    obtain ⟨operands', -, same⟩ := (slot_of_call role args).mp computes.slot_eq
    cases same
    have result := computes.kind_eq
    cases value with
    | int number =>
      refine ⟨before.length, command, name, tokens, op, number, rfl, ?_, role, args, found, ?_,
        result.symm, unreported⟩
      · rw [length]
        simp
      · exact settles.getElem?_next _ after
    | set | relation | bool => cases unreported
  · intro i command' inside found' role'
    have bound : i < earlier.length := by omega
    rw [List.getElem?_append_left bound] at found'
    obtain ⟨name', tokens', op', value', args', known, result, reported⟩ :=
      settles.exists_result_of_kind made checked found' role'
    refine ⟨name', tokens', op', value', args', known, ?_, reported⟩
    show (settleAll before values ++ _ :: after)[i]? = _
    rw [List.getElem?_append_left (by omega), result]
  · intro i behind
    show (settleAll before values ++ _ :: after)[i]? = (before ++ _ :: after)[i]?
    obtain ⟨j, rfl⟩ := Nat.exists_eq_add_of_le behind
    rw [List.getElem?_append_right (by omega), List.getElem?_append_right (by omega), settled,
      show before.length + 1 + j - before.length = j + 1 by omega, List.getElem?_cons_succ,
      List.getElem?_cons_succ]

/-- Where all results can be reported, no value has too many digits. -/
theorem not_exceeds (first : GroundFirst commands) (spells : catalog.SpellsResults) :
    ¬ Exceeds catalog commands slots := by
  intro exceeds
  obtain @⟨earlier, later, command, before, after, kinds, kind, values, name, operands, value,
    rfl, -, -, -, settles, role, passes, computes, unreported⟩ := exceeds
  rw [List.append_cons] at first
  obtain ⟨ground, -, head⟩ := exists_ground_of_evaluates settles.evaluates first.of_append role
  obtain ⟨name', tokens, op, args, found, fits, -⟩ := callKind_eq_ok_iff.mp passes
  rw [← settles.kinds_eq] at fits
  obtain ⟨op, operands, known, kinds, -, applied⟩ :=
    exists_applied role ⟨name', tokens, op, args, found, fits⟩ head computes.equation
  rw [spells op known _ operands value kinds applied] at unreported
  cases unreported

end Runs

/-- **Validation is sound for evaluation, up to numbers of too many digits.**  The standard catalog
is well typed.  Over any well-typed catalog, an accepted list of commands becomes a program, and
either this is run without a fault, after which no call is left and each call has become a result of
the kind that its operation gives; or it is run up to a call that gives a number of more than 4300
digits, the only fault being that its result, which is written, cannot be reported.  Where the
results of the catalog can be reported, as those of the standard catalog can, it is run without a
fault. -/
theorem run_of_validate :
    Catalog.standard.WellTyped ∧
      ∀ (catalog : Catalog) (commands : List Command), catalog.WellTyped →
        validate catalog commands = .ok none →
          ∃ start : Program, ofCommands commands = .ok start ∧
            ((∃ done, RunsThrough catalog commands start done) ∨
              ∃ k stopped, StopsUnspelled catalog commands start k stopped) ∧
            (catalog = Catalog.standard ∨ catalog.SpellsResults →
              ∃ done, RunsThrough catalog commands start done) := by
  refine ⟨Catalog.wellTyped_standard, fun catalog commands wellTyped accepted => ?_⟩
  obtain ⟨slots, kinds, hslots, passes, first⟩ := exists_slots_of_validate accepted
  have outcome := settles_or_exceeds wellTyped first hslots passes
  refine ⟨⟨slots⟩, ofCommands_of_slots hslots, ?_, ?_⟩
  · rcases outcome with ⟨values, settles⟩ | exceeds
    · exact .inl ⟨_, settles.runsThrough hslots passes⟩
    · exact .inr exceeds.exists_stopsUnspelled
  · rintro (rfl | spells)
    · obtain ⟨slots', kinds', values, hslots', passes', settles⟩ :=
        exists_settles_of_validate accepted
      obtain rfl := Except.ok.inj (hslots.symm.trans hslots')
      exact ⟨_, settles.runsThrough hslots' passes'⟩
    · obtain ⟨values, settles⟩ := outcome.resolve_right (not_exceeds first spells)
      exact ⟨_, settles.runsThrough hslots passes⟩

theorem run_of_validate_sampleCommands :
    Catalog.standard.WellTyped ∧ validate Catalog.standard sampleCommands = .ok none ∧
      ∃ start done : Program, ofCommands sampleCommands = .ok start ∧
        start.run Catalog.standard = (done, none) ∧
        ∀ slot ∈ done.slots, slot.content.isCall = false := by
  have accepted : validate Catalog.standard sampleCommands = .ok none := by decide +kernel
  obtain ⟨wellTyped, sound⟩ := run_of_validate
  obtain ⟨start, hstart, -, whole⟩ := sound Catalog.standard sampleCommands wellTyped accepted
  obtain ⟨done, runs⟩ := whole (.inl rfl)
  exact ⟨wellTyped, accepted, start, done, hstart, runs.run, runs.settled⟩

/-! ## A number of too many digits -/

/-- A number of 5001 digits. -/
def hugeNumber : Int := Int.ofNat (10 ^ 5000)

/-- A catalog of one operation, which gives this number for every set. -/
def hugeCatalog : Catalog :=
  ⟨[Operation.ofSets "huge" 1 .int (Operation.onCollection "huge" fun _ => .int hugeNumber)],
    by simp⟩

/-- A program that calls it. -/
def hugeCommands : List Command :=
  [⟨"U", ["a"], none⟩, ⟨"S", ["a"], none⟩, ⟨"C", ["huge", "2"], none⟩]

/-- The catalog is well typed and the program is accepted, but its run ends in a fault. -/
theorem run_hugeCommands :
    hugeCatalog.WellTyped ∧ validate hugeCatalog hugeCommands = .ok none ∧
      ∃ start stopped : Program, ofCommands hugeCommands = .ok start ∧
        start.run hugeCatalog = (stopped, some .notSpelled) ∧
        stopped.slots[2]? = some ⟨3, none, .result "huge" (.int hugeNumber)⟩ := by
  refine ⟨?_, by decide +kernel, ?_⟩
  · intro op member
    obtain rfl := List.mem_singleton.mp member
    exact Operation.wellTyped_onCollection _ _ _ fun _ => rfl
  · refine ⟨⟨[⟨1, none, .ground (FinSet.ofList ["a"])⟩, ⟨2, none, .set (FinSet.ofList ["a"])⟩,
      ⟨3, none, .call "huge" [2]⟩]⟩, ⟨[⟨1, none, .ground (FinSet.ofList ["a"])⟩,
        ⟨2, none, .set (FinSet.ofList ["a"])⟩, ⟨3, none, .result "huge" (.int hugeNumber)⟩]⟩,
      by decide +kernel, by decide +kernel, rfl⟩

end RelCalc.Program
