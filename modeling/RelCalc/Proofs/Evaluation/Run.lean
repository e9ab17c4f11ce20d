/-
  `Proofs.Evaluation.Run`: runs of a program.

  A run evaluates the calls of a program from the first to the last.  What is known
  after the lines of some commands have been run is one invariant, `Settles`: their
  calls have become results, the values found satisfy the equations and have the
  kinds that the check found, and nothing behind these lines was touched.  One more
  line keeps the invariant unless its value has too many digits to be reported, and
  then the run stops there, at the latest.  A whole program has it by induction, or
  has a line of that sort.
-/
import RelCalc.Proofs.Evaluation.Slots

set_option autoImplicit false

namespace RelCalc.Program

open Outcome Validation

/-! ## The lines of calls -/

section Calls

variable {slots : List Slot} {slot : Slot}

theorem exists_calls_append (slots more : List Slot) :
    ∃ later, calls ⟨slots ++ more⟩ = calls ⟨slots⟩ ++ later := by
  simp only [calls, List.filter_append, List.map_append]
  exact ⟨_, rfl⟩

theorem calls_concat_of_call (h : slot.content.isCall = true) :
    calls ⟨slots ++ [slot]⟩ = calls ⟨slots⟩ ++ [slot.index] := by
  simp [calls, h]

theorem calls_concat_of_value (h : slot.content.isCall = false) :
    calls ⟨slots ++ [slot]⟩ = calls ⟨slots⟩ := by
  simp [calls, h]

end Calls

/-! ## Runs over lines -/

/-- Some lines are evaluated in order up to line `k`, whose evaluation fails with the given fault
and leaves the given program. -/
inductive StopsIn (catalog : Catalog) : List Nat → Program → Nat → Program → Fault → Prop where
  | here {k : Nat} {rest : List Nat} {p stopped : Program} {fault : Fault}
      (fails : p.evaluate catalog k = .error ⟨stopped, fault⟩) :
      StopsIn catalog (k :: rest) p k stopped fault
  | later {index : Nat} {rest : List Nat} {p next : Program} {k : Nat} {stopped : Program}
      {fault : Fault} (passes : p.evaluate catalog index = .ok next)
      (stops : StopsIn catalog rest next k stopped fault) :
      StopsIn catalog (index :: rest) p k stopped fault

/-- A run of a program fails while line `k` is evaluated, with the given fault, and leaves the
given program. -/
def StopsAt (p : Program) (catalog : Catalog) (k : Nat) (stopped : Program) (fault : Fault) :
    Prop :=
  StopsIn catalog p.calls p k stopped fault

section RunLines

variable {catalog : Catalog} {lines first rest : List Nat} {p q stopped : Program} {k : Nat}
  {fault : Fault}

theorem runLines_cons_of_ok {index : Nat} (h : p.evaluate catalog index = .ok q) :
    runLines catalog (index :: rest) p = runLines catalog rest q := by
  simp only [runLines, h]

theorem runLines_cons_of_error {index : Nat}
    (h : p.evaluate catalog index = .error ⟨stopped, fault⟩) :
    runLines catalog (index :: rest) p = (stopped, some fault) := by
  simp only [runLines, h]

/-- What is run after lines that do not fail starts from where they end. -/
theorem runLines_append (h : runLines catalog first p = (q, none)) :
    runLines catalog (first ++ rest) p = runLines catalog rest q := by
  induction first generalizing p with
  | nil =>
    cases h
    rfl
  | cons index lines ih =>
    cases step : p.evaluate catalog index with
    | error stopped =>
      rw [runLines_cons_of_error step] at h
      cases h
    | ok next =>
      rw [runLines_cons_of_ok step] at h
      rw [List.cons_append, runLines_cons_of_ok step]
      exact ih h

/-- Lines that do not fail are passed on the way to the line that does. -/
theorem StopsIn.append (h : runLines catalog first p = (q, none))
    (stops : StopsIn catalog rest q k stopped fault) :
    StopsIn catalog (first ++ rest) p k stopped fault := by
  induction first generalizing p with
  | nil =>
    cases h
    exact stops
  | cons index lines ih =>
    cases step : p.evaluate catalog index with
    | error stopped =>
      rw [runLines_cons_of_error step] at h
      cases h
    | ok next =>
      rw [runLines_cons_of_ok step] at h
      exact .later step (ih h)

theorem StopsIn.runLines_eq (h : StopsIn catalog lines p k stopped fault) :
    runLines catalog lines p = (stopped, some fault) := by
  induction h with
  | here fails => exact runLines_cons_of_error fails
  | later passes _ ih =>
    rw [runLines_cons_of_ok passes]
    exact ih

/-- A run fails in one line only. -/
theorem StopsIn.unique (h : StopsIn catalog lines p k stopped fault) {k' : Nat} {stopped' : Program}
    {fault' : Fault} (h' : StopsIn catalog lines p k' stopped' fault') :
    k = k' ∧ stopped = stopped' ∧ fault = fault' := by
  induction h with
  | here fails =>
    cases h' with
    | here fails' =>
      obtain ⟨rfl, rfl⟩ := Interruption.mk.inj (Except.error.inj (fails.symm.trans fails'))
      exact ⟨rfl, rfl, rfl⟩
    | later passes => cases fails.symm.trans passes
  | later passes _ ih =>
    cases h' with
    | here fails => cases passes.symm.trans fails
    | later passes' stops =>
      obtain rfl := Except.ok.inj (passes.symm.trans passes')
      exact ih stops

end RunLines

/-! ## The ground set -/

/-- The first command declares the ground set. -/
def GroundFirst (commands : List Command) : Prop :=
  ∀ command, commands.head? = some command → command.role? = some .ground

theorem GroundFirst.of_append {commands more : List Command} (h : GroundFirst (commands ++ more)) :
    GroundFirst commands := by
  intro command found
  apply h
  rw [List.head?_append, found, Option.some_or]

/-- The lines before a call start with the ground set: a call is never the first line. -/
theorem exists_ground_of_evaluates {catalog : Catalog} {commands : List Command} {command : Command}
    {values : List Value} (earlier : Evaluates catalog commands values)
    (first : GroundFirst (commands ++ [command])) (role : command.role? = some .call) :
    ∃ ground, commands.head? = some ground ∧
      values.head? = some (.set (FinSet.ofList ground.args)) := by
  cases commands with
  | nil =>
    have ground := first command rfl
    rw [role] at ground
    cases ground
  | cons ground rest =>
    cases values with
    | nil => cases earlier.length_eq
    | cons value others =>
      have line := earlier.solves.line 0 ground value rfl rfl
      exact ⟨ground, rfl, congrArg some (line.unique (.ground (first ground rfl)))⟩

/-! ## What holds after the lines of some commands -/

/-- The lines of some commands can be run: they get values, and nothing after them matters. -/
structure Settles (catalog : Catalog) (commands : List Command) (slots : List Slot)
    (kinds : List Kind) (values : List Value) : Prop where
  /-- The values are found from the first line to the last. -/
  evaluates : Evaluates catalog commands values
  /-- They have the kinds that the check found. -/
  kinds_eq : values.map Value.kind = kinds
  /-- They can be reported. -/
  spelled : ∀ value ∈ values, value.isSpelled = true
  length_eq : slots.length = values.length
  /-- The settled slots hold the values. -/
  holds : (settleAll slots values).map Slot.value? = values.map some
  /-- Running the calls settles these slots and leaves those behind them. -/
  run : ∀ rest : List Slot, runLines catalog (calls ⟨slots⟩) ⟨slots ++ rest⟩ =
    (⟨settleAll slots values ++ rest⟩, none)

namespace Settles

variable {catalog : Catalog} {commands : List Command} {slots : List Slot} {kinds : List Kind}
  {values : List Value} {command : Command} {slot : Slot} {kind : Kind} {value : Value}

theorem nil (catalog : Catalog) : Settles catalog [] [] [] [] :=
  ⟨.nil, rfl, nofun, rfl, rfl, fun _ => rfl⟩

/-- The program in front of the next line: the lines before it have their values. -/
theorem holds_cut (h : Settles catalog commands slots kinds values) (rest : List Slot) :
    Holds ⟨settleAll slots values ++ rest⟩ values :=
  ⟨rest.map Slot.value?, by rw [List.map_append, h.holds]⟩

/-- The next line stands where the lines before it end. -/
theorem getElem?_next (h : Settles catalog commands slots kinds values) (slot : Slot)
    (rest : List Slot) : (settleAll slots values ++ slot :: rest)[slots.length]? = some slot := by
  rw [← length_settleAll h.length_eq]
  simp

theorem set_next (h : Settles catalog commands slots kinds values) (slot held : Slot)
    (rest : List Slot) : (settleAll slots values ++ slot :: rest).set slots.length held =
      settleAll slots values ++ held :: rest := by
  rw [← length_settleAll h.length_eq]
  simp

/-- One more value of which the equation, the kind and the length are right, if running the lines up
to its own settles them. -/
theorem snoc (h : Settles catalog commands slots kinds values)
    (equation : Equation catalog values command value) (hkind : value.kind = kind)
    (reported : value.isSpelled = true) (held : (slot.settle value).value? = some value)
    (run : ∀ rest : List Slot, runLines catalog (calls ⟨slots ++ [slot]⟩)
      ⟨slots ++ slot :: rest⟩ = (⟨settleAll slots values ++ slot.settle value :: rest⟩, none)) :
    Settles catalog (commands ++ [command]) (slots ++ [slot]) (kinds ++ [kind])
      (values ++ [value]) := by
  refine ⟨.snoc h.evaluates equation, ?_, ?_, ?_, ?_, fun rest => ?_⟩
  · rw [List.map_append, h.kinds_eq, ← hkind]
    rfl
  · exact List.forall_mem_append.mpr ⟨h.spelled, List.forall_mem_singleton.mpr reported⟩
  · simp [h.length_eq]
  · rw [settleAll_concat h.length_eq, List.map_append, h.holds, List.map_append]
    simp [held]
  · rw [settleAll_concat h.length_eq, List.append_assoc, List.append_assoc]
    exact run rest

/-- One more line that has its value from the start. -/
theorem concat_declaration (h : Settles catalog commands slots kinds values)
    (hslot : command.slot (slots.length + 1) = .ok slot)
    (static : staticKind? catalog command = some kind) (notCall : command.role? ≠ some .call) :
    ∃ value, Settles catalog (commands ++ [command]) (slots ++ [slot]) (kinds ++ [kind])
      (values ++ [value]) := by
  obtain ⟨hvalue, value, holds, hkind, equation⟩ :=
    slot_of_declaration values static notCall hslot
  have reported : value.isSpelled = true := by
    -- A declared value is a set or a relation.
    cases equation with
    | ground | set | relation => rfl
    | call _ _ _ _ _ _ role => exact absurd role notCall
  refine ⟨value, h.snoc equation hkind reported ?_ fun rest => ?_⟩
  · rw [settle_of_value hvalue, holds]
  · rw [settle_of_value hvalue, calls_concat_of_value hvalue]
    exact h.run (slot :: rest)

end Settles

/-! ## The next call -/

/-- The next line holds a call that is evaluated to a value of the kind that the check has found,
where the lines before it end and whatever stands behind it. -/
structure Computes (catalog : Catalog) (commands : List Command) (slots : List Slot)
    (values : List Value) (command : Command) (kind : Kind) (name : String) (operands : List Int)
    (value : Value) : Prop where
  slot_eq : command.slot (slots.length + 1) =
    .ok ⟨slots.length + 1, command.line, .call name operands⟩
  spelled : ∀ operand ∈ operands, Text.isSpelled operand = true
  kind_eq : value.kind = kind
  equation : Equation catalog values command value
  compute : ∀ rest : List Slot, compute
    ⟨settleAll slots values ++ ⟨slots.length + 1, command.line, .call name operands⟩ :: rest⟩
      catalog ⟨name, operands, command.line, slots.length + 1⟩ = .ok value

namespace Settles

variable {catalog : Catalog} {commands : List Command} {slots : List Slot} {kinds : List Kind}
  {values : List Value} {command : Command} {slot : Slot} {kind : Kind} {name : String}
  {operands : List Int} {value : Value}

/-- A call that passes the check is evaluated to a value. -/
theorem exists_computes (h : Settles catalog commands slots kinds values)
    (wellTyped : catalog.WellTyped) (first : GroundFirst (commands ++ [command]))
    (hslot : command.slot (slots.length + 1) = .ok slot) (role : command.role? = some .call)
    (passes : callKind catalog kinds command = .ok kind) :
    ∃ name operands value, slot = ⟨slots.length + 1, command.line, .call name operands⟩ ∧
      Computes catalog commands slots values command kind name operands value := by
  obtain ⟨name, tokens, op, args, found, fits, -⟩ := callKind_eq_ok_iff.mp passes
  obtain ⟨operands, hoperands, rfl⟩ := (slot_of_call role args).mp hslot
  have read : ReadAs tokens operands := readAs_of_mapM fits.numbers hoperands
  obtain ⟨ground, -, hground⟩ := exists_ground_of_evaluates h.evaluates first role
  rw [← h.kinds_eq] at passes
  let call : Call := ⟨name, operands, command.line, slots.length + 1⟩
  have place : call.index = values.length + 1 := congrArg (· + 1) h.length_eq
  have computes (rest : List Slot) : ∃ value,
      Program.compute ⟨settleAll slots values ++
        ⟨slots.length + 1, command.line, .call name operands⟩ :: rest⟩ catalog call = .ok value ∧
        value.kind = kind ∧ Equation catalog values command value :=
    exists_compute_of_callKind wellTyped (h.holds_cut _) hground place role args read passes
  obtain ⟨value, -, hkind, equation⟩ := computes []
  refine ⟨name, operands, value, rfl, hslot, read.spelled, hkind, equation, fun rest => ?_⟩
  -- The equation determines the value, so it does not depend on what stands behind the line.
  obtain ⟨value', hcompute, -, equation'⟩ := computes rest
  obtain rfl : value' = value := equation'.unique equation
  exact hcompute

/-- One more line that holds a call: it is evaluated where the lines before it end. -/
theorem concat_call (h : Settles catalog commands slots kinds values)
    (computes : Computes catalog commands slots values command kind name operands value)
    (reported : value.isSpelled = true) :
    Settles catalog (commands ++ [command])
      (slots ++ [⟨slots.length + 1, command.line, .call name operands⟩]) (kinds ++ [kind])
      (values ++ [value]) := by
  refine h.snoc computes.equation computes.kind_eq reported rfl fun rest => ?_
  have step := evaluate_of_compute (h.getElem?_next _ rest) computes.spelled (computes.compute rest)
    reported
  rw [h.set_next] at step
  rw [calls_concat_of_call rfl, runLines_append (h.run _), runLines_cons_of_ok step]
  rfl

/-- If the next line holds a call that cannot be evaluated where the lines before it end, the run
stops there. -/
theorem stopsAt_next (h : Settles catalog commands slots kinds values)
    (index : slot.index = slots.length + 1) (holdsCall : slot.content.isCall = true)
    {rest : List Slot} {stopped : Program} {fault : Fault}
    (fails : evaluate ⟨settleAll slots values ++ slot :: rest⟩ catalog (slots.length + 1 : Nat) =
      .error ⟨stopped, fault⟩) :
    StopsAt ⟨slots ++ slot :: rest⟩ catalog (slots.length + 1) stopped fault := by
  obtain ⟨later, calls_eq⟩ := exists_calls_append (slots ++ [slot]) rest
  rw [calls_concat_of_call holdsCall, index, List.append_assoc, List.append_assoc] at calls_eq
  unfold StopsAt
  rw [show slots ++ slot :: rest = slots ++ ([slot] ++ rest) from rfl, calls_eq]
  exact StopsIn.append (h.run _) (.here fails)

/-- A call whose value is too long to be reported stops the run, after the value was written. -/
theorem stopsAt_of_unspelled (h : Settles catalog commands slots kinds values)
    (computes : Computes catalog commands slots values command kind name operands value)
    (unreported : value.isSpelled = false) (rest : List Slot) :
    StopsAt ⟨slots ++ ⟨slots.length + 1, command.line, .call name operands⟩ :: rest⟩ catalog
      (slots.length + 1)
      ⟨settleAll slots values ++ ⟨slots.length + 1, command.line, .result name value⟩ :: rest⟩
      .notSpelled := by
  have step := evaluate_of_unspelled (h.getElem?_next _ rest) (computes.compute rest) unreported
  rw [h.set_next] at step
  exact h.stopsAt_next rfl rfl step

/-- The whole program is run without a fault. -/
theorem run_eq (h : Settles catalog commands slots kinds values) :
    (Program.mk slots).run catalog = (⟨settleAll slots values⟩, none) := by
  have whole := h.run []
  simp only [List.append_nil] at whole
  exact whole

/-- No settled slot is a call. -/
theorem isCall_of_mem (h : Settles catalog commands slots kinds values)
    (member : slot ∈ settleAll slots values) : slot.content.isCall = false := by
  have held : slot.value? ∈ values.map some := h.holds ▸ List.mem_map_of_mem member
  obtain ⟨value, -, hvalue⟩ := List.mem_map.mp held
  exact Slot.isCall_of_value? hvalue.symm

/-- The slots behind the settled ones are as they were. -/
theorem getElem?_of_le (h : Settles catalog commands slots kinds values) (rest : List Slot)
    {i : Nat} (behind : slots.length ≤ i) :
    (settleAll slots values ++ rest)[i]? = (slots ++ rest)[i]? := by
  have length := length_settleAll h.length_eq
  rw [List.getElem?_append_right (by omega), List.getElem?_append_right behind, length]

/-- The slot of a call holds its result, which has the kind that the check found. -/
theorem exists_result (h : Settles catalog commands slots kinds values)
    (hslots : slotsOf commands = .ok slots) {i : Nat}
    (found : commands[i]? = some command) (role : command.role? = some .call) {name : String}
    {tokens : List String} (args : command.args = name :: tokens) :
    ∃ value, values[i]? = some value ∧ kinds[i]? = some value.kind ∧
      (settleAll slots values)[i]? = some ⟨i + 1, command.line, .result name value⟩ := by
  obtain ⟨slot, hslot, hcommand⟩ := exists_slot_of_slotsOf hslots found
  obtain ⟨operands, -, rfl⟩ := (slot_of_call role args).mp hcommand
  have bound : i < values.length := h.length_eq ▸ (List.getElem?_eq_some_iff.mp hslot).1
  have hvalue : values[i]? = some values[i] := List.getElem?_eq_getElem bound
  refine ⟨values[i], hvalue, ?_, ?_⟩
  · rw [← h.kinds_eq, List.getElem?_map, hvalue]
    rfl
  · exact getElem?_settleAll hslot hvalue

end Settles

/-! ## Whole programs -/

/-- The lines of some commands cannot all be settled: those before some call can, but the value of
this call has too many digits to be reported. -/
inductive Exceeds (catalog : Catalog) (commands : List Command) (slots : List Slot) : Prop where
  | intro {earlier later : List Command} {command : Command} {before after : List Slot}
      {kinds : List Kind} {kind : Kind} {values : List Value} {name : String} {operands : List Int}
      {value : Value} (commands_eq : commands = earlier ++ command :: later)
      (slots_eq : slots = before ++
        ⟨before.length + 1, command.line, .call name operands⟩ :: after)
      (made : slotsOf earlier = .ok before) (checked : commandKinds catalog [] earlier = .ok kinds)
      (settles : Settles catalog earlier before kinds values)
      (role : command.role? = some .call) (passes : callKind catalog kinds command = .ok kind)
      (computes : Computes catalog earlier before values command kind name operands value)
      (unreported : value.isSpelled = false) : Exceeds catalog commands slots

/-- Commands that pass the check can be run, as far as the values of their calls can be reported. -/
theorem settles_or_exceeds {catalog : Catalog} (wellTyped : catalog.WellTyped)
    {commands : List Command} (first : GroundFirst commands) {slots : List Slot}
    (hslots : slotsOf commands = .ok slots) {kinds : List Kind}
    (passes : commandKinds catalog [] commands = .ok kinds) :
    (∃ values, Settles catalog commands slots kinds values) ∨ Exceeds catalog commands slots := by
  induction commands using List.reverseRecOn generalizing slots kinds with
  | nil =>
    cases hslots
    cases passes
    exact .inl ⟨[], .nil catalog⟩
  | append_singleton commands command ih =>
    obtain ⟨earlier, slot, hearlier, hslot, rfl⟩ := slotsOf_concat_eq_ok_iff.mp hslots
    rw [commandKinds_concat] at passes
    simp only [bind_eq_ok_iff, pure_eq_ok_iff] at passes
    obtain ⟨found, hfound, kind, hkind, rfl⟩ := passes
    rcases ih first.of_append hearlier hfound with
      ⟨values, settles⟩ |
        ⟨commands_eq, slots_eq, made, checked, settles, role, passes, computes, unreported⟩
    · by_cases role : command.role? = some .call
      · simp only [commandKind, role] at hkind
        obtain ⟨name, operands, value, rfl, computes⟩ :=
          settles.exists_computes wellTyped first hslot role hkind
        cases reported : value.isSpelled with
        | true => exact .inl ⟨_, settles.concat_call computes reported⟩
        | false => exact .inr ⟨rfl, rfl, hearlier, hfound, settles, role, hkind, computes, reported⟩
      · have static := (commandKind_eq_ok_iff.mp hkind).1
        obtain ⟨value, settles'⟩ := settles.concat_declaration hslot static role
        exact .inl ⟨_, settles'⟩
    · subst commands_eq slots_eq
      exact .inr ⟨by rw [List.append_assoc, List.cons_append],
        by rw [List.append_assoc, List.cons_append], made, checked, settles, role, passes, computes,
        unreported⟩

end RelCalc.Program
