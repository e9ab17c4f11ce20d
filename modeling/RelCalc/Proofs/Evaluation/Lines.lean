/-
  `Proofs.Evaluation.Lines`: an accepted program, line by line.

  What the run of an accepted program leaves on its lines is put together here once, so
  that statements about several programs need not go through the run again: the first
  line holds the ground set, declarations hold what they declare, and a call holds what
  its operation gives for the values of earlier lines, which have the right kinds.
-/
import RelCalc.Proofs.Evaluation.Soundness

set_option autoImplicit false

namespace RelCalc.Program

open Outcome Validation

/-- An accepted list of commands, the slots it becomes, and the kinds and values that these end up
with. -/
structure Accepted (catalog : Catalog) (commands : List Command) (slots : List Slot)
    (kinds : List Kind) (values : List Value) : Prop where
  validated : validate catalog commands = .ok none
  slots_eq : slotsOf commands = .ok slots
  kinds_eq : commandKinds catalog [] commands = .ok kinds
  settles : Settles catalog commands slots kinds values

/-- A call and its value: the operation applied to the values of earlier lines. -/
structure Applies (catalog : Catalog) (values : List Value) (i : Nat) (command : Command)
    (name : String) (tokens : List String) (op : Operation) (operands : List Value)
    (value : Value) : Prop where
  args : command.args = name :: tokens
  found : catalog.find? name = some op
  /-- The operands stand on lines before the call. -/
  referents : Referents (values.take i) tokens operands
  kinds : operands.map Value.kind = op.operands
  held : values[i]? = some value
  applied : op.apply values.head? operands = .ok value

/-- Every operand is the number of a line before the call. -/
theorem Applies.numbers {catalog : Catalog} {values operands : List Value} {i : Nat}
    {command : Command} {name : String} {tokens : List String} {op : Operation} {value : Value}
    (h : Applies catalog values i command name tokens op operands value) :
    ∀ token ∈ tokens, ∃ n, Text.readNatural token = .ok n ∧ 1 ≤ n ∧ n ≤ i := by
  refine forall_mem_of_forall₂ h.referents fun token operand referent => ?_
  obtain ⟨n, read, found⟩ := referent?_eq_some_iff.mp referent
  have bound := le_length_of_atLine? found
  rw [List.length_take] at bound
  exact ⟨n, read, (atLine?_eq_some_iff.mp found).1, by omega⟩

/-- Commands that are accepted over the standard catalog have slots, kinds and values. -/
theorem exists_accepted {commands : List Command}
    (validated : validate Catalog.standard commands = .ok none) :
    ∃ slots kinds values, Accepted Catalog.standard commands slots kinds values := by
  obtain ⟨slots, kinds, values, hslots, passes, settles⟩ := exists_settles_of_validate validated
  exact ⟨slots, kinds, values, validated, hslots, passes, settles⟩

namespace Accepted

variable {catalog : Catalog} {commands : List Command} {slots : List Slot} {kinds : List Kind}
  {values : List Value} {command : Command} {p : Program} {i : Nat} {slot : Slot} {value : Value}

theorem ofCommands_eq (h : Accepted catalog commands slots kinds values) :
    ofCommands commands = .ok ⟨slots⟩ := ofCommands_of_slots h.slots_eq

theorem length_values (h : Accepted catalog commands slots kinds values) :
    values.length = commands.length := h.settles.evaluates.length_eq

/-- All lines of the settled program have their values. -/
theorem holds (h : Accepted catalog commands slots kinds values) :
    Holds ⟨settleAll slots values⟩ values := by
  have whole := h.settles.holds_cut []
  rwa [List.append_nil] at whole

/-- A line of the settled program is asked for its value. -/
theorem valueAt (h : Accepted catalog commands slots kinds values) {line : Nat} {value : Value}
    (found : atLine? values line = some value) :
    Program.valueAt ⟨settleAll slots values⟩ line none = .ok value := h.holds.valueAt none found

theorem exists_value (h : Accepted catalog commands slots kinds values)
    (found : commands[i]? = some command) : ∃ value, values[i]? = some value := by
  have bound := (List.getElem?_eq_some_iff.mp found).1
  rw [← h.length_values] at bound
  exact ⟨values[i], List.getElem?_eq_getElem bound⟩

theorem keepsShape (h : Accepted catalog commands slots kinds values) : KeepsShape commands :=
  (check_eq_ok_iff.mp (validate_eq_none_iff.mp h.validated)).1

/-- The first command, and no other, declares the ground set, whose elements are different. -/
theorem exists_ground (h : Accepted catalog commands slots kinds values) :
    ∃ ground rest, commands = ground :: rest ∧ ground.role? = some .ground ∧
      ground.args.Nodup ∧ values.head? = some (.set (FinSet.ofList ground.args)) ∧
        ∀ command ∈ rest, command.role? ≠ some .ground := by
  obtain ⟨-, elements, -⟩ := check_eq_ok_iff.mp (validate_eq_none_iff.mp h.validated)
  obtain ⟨ground, rest, rfl, role, others⟩ := h.keepsShape.cons_ground
  obtain ⟨-, distinct⟩ := checkGroundElements_cons_eq_ok_iff.mp elements
  refine ⟨ground, rest, rfl, role, distinct, ?_, others⟩
  obtain ⟨value, hvalue⟩ := h.exists_value (i := 0) (List.getElem?_cons_zero)
  have line := h.settles.evaluates.solves.line 0 ground value rfl hvalue
  obtain rfl : value = .set (FinSet.ofList ground.args) := line.unique (.ground role)
  rw [List.head?_eq_getElem?, hvalue]

/-- Only the first line declares the ground set. -/
theorem eq_zero_of_ground (h : Accepted catalog commands slots kinds values)
    (found : commands[i]? = some command) (role : command.role? = some .ground) : i = 0 := by
  obtain ⟨first, rest, rfl, -, -, -, others⟩ := h.exists_ground
  by_contra positive
  obtain ⟨j, rfl⟩ := Nat.exists_eq_succ_of_ne_zero positive
  rw [List.getElem?_cons_succ] at found
  exact others command (List.mem_of_getElem? found) role

/-- A declared set is the set of its arguments, which are different. -/
theorem set_value (h : Accepted catalog commands slots kinds values)
    (found : commands[i]? = some command) (role : command.role? = some .set) :
    command.args.Nodup ∧ values[i]? = some (.set (FinSet.ofList command.args)) := by
  obtain ⟨-, -, declared, -⟩ := check_eq_ok_iff.mp (validate_eq_none_iff.mp h.validated)
  obtain ⟨ground, rest, rfl, -⟩ := h.exists_ground
  obtain ⟨value, hvalue⟩ := h.exists_value found
  have line := h.settles.evaluates.solves.line i command value found hvalue
  obtain rfl : value = .set (FinSet.ofList command.args) := line.unique (.set role)
  refine ⟨?_, hvalue⟩
  cases checkDeclaredElements_cons_eq_ok_iff.mp declared command (List.mem_of_getElem? found)
      (declares_iff.mpr (.inl role)) with
  | set _ _ distinct => exact distinct
  | relation pairs other => simp [role] at other

/-- A declared relation is the set of its pairs, which are different. -/
theorem relation_value (h : Accepted catalog commands slots kinds values)
    (found : commands[i]? = some command) (role : command.role? = some .relation) :
    ∃ pairs : List (Element × Element), command.args = Relation.flatten pairs ∧ pairs.Nodup ∧
      values[i]? = some (.relation (FinSet.ofList pairs)) := by
  obtain ⟨-, -, declared, -⟩ := check_eq_ok_iff.mp (validate_eq_none_iff.mp h.validated)
  obtain ⟨ground, rest, rfl, -⟩ := h.exists_ground
  obtain ⟨value, hvalue⟩ := h.exists_value found
  have line := h.settles.evaluates.solves.line i command value found hvalue
  cases checkDeclaredElements_cons_eq_ok_iff.mp declared command (List.mem_of_getElem? found)
      (declares_iff.mpr (.inr role)) with
  | set other => simp [role] at other
  | relation pairs _ _ paired distinct =>
    have hpairs : Relation.ofFlat? command.args = some (FinSet.ofList pairs) := by
      rw [Relation.ofFlat?, pairUp?_eq_some_iff.mpr paired]
      rfl
    obtain rfl : value = .relation (FinSet.ofList pairs) :=
      line.unique (.relation _ role hpairs)
    exact ⟨pairs, paired, distinct, hvalue⟩

/-- A call fits the kinds of the lines before it. -/
theorem callFits (h : Accepted catalog commands slots kinds values)
    (found : commands[i]? = some command) (role : command.role? = some .call) :
    CallFits catalog ((values.take i).map Value.kind) command := by
  have fits := (commandKinds_eq_ok_iff.mp h.kinds_eq).2 i command found role
  rwa [← h.settles.kinds_eq, ← List.map_take] at fits

/-- A call holds what its operation gives for the values of earlier lines. -/
theorem exists_applies (h : Accepted catalog commands slots kinds values)
    (found : commands[i]? = some command) (role : command.role? = some .call) :
    ∃ name tokens op operands value, Applies catalog values i command name tokens op operands value
      := by
  obtain ⟨name, tokens, op, args, hop, fits⟩ := h.callFits found role
  obtain ⟨operands, referents, hkinds⟩ := forall₂_referent?_kinds_iff.mp fits.referents
  obtain ⟨value, hvalue⟩ := h.exists_value found
  refine ⟨name, tokens, op, operands, value, args, hop, referents, hkinds, hvalue, ?_⟩
  -- The equation of the line is about all values; its operands are those before the line.
  have all := referents.append (values.drop i)
  rw [List.take_append_drop] at all
  cases h.settles.evaluates.solves.line i command value found hvalue with
  | ground other => simp [role] at other
  | set other => simp [role] at other
  | relation _ other => simp [role] at other
  | call name' tokens' op' first operands' _ _ args' found' ground referents' applied =>
    obtain ⟨rfl, rfl⟩ := List.cons.inj (args.symm.trans args')
    obtain rfl : op = op' := Option.some.inj (hop.symm.trans found')
    obtain rfl : operands = operands' := all.unique referents'
    rw [ground]
    exact applied

/-- A slot has a value in the end. -/
theorem exists_values (h : Accepted catalog commands slots kinds values)
    (found : slots[i]? = some slot) : ∃ value, values[i]? = some value := by
  have bound := (List.getElem?_eq_some_iff.mp found).1
  rw [h.settles.length_eq] at bound
  exact ⟨values[i], List.getElem?_eq_getElem bound⟩

theorem value_settle (h : Accepted catalog commands slots kinds values)
    (found : slots[i]? = some slot) (hvalue : values[i]? = some value) :
    (slot.settle value).value? = some value := by
  have whole : ((settleAll slots values).map Slot.value?)[i]? = (values.map some)[i]? := by
    rw [h.settles.holds]
  rw [List.getElem?_map, getElem?_settleAll found hvalue, List.getElem?_map, hvalue] at whole
  exact Option.some.inj whole

theorem exists_command (h : Accepted catalog commands slots kinds values)
    (found : slots[i]? = some slot) :
    ∃ command, commands[i]? = some command ∧ command.slot (i + 1) = .ok slot :=
  exists_command_of_slotsOf h.slots_eq found

/-- The operands of a call, which its command has spelled, can be reported. -/
theorem spelled_operands (h : Accepted catalog commands slots kinds values) {number : Nat}
    {line : Option Int} {name : String} {operands : List Int}
    (found : slots[i]? = some ⟨number, line, .call name operands⟩) :
    ∀ operand ∈ operands, Text.isSpelled operand = true := by
  obtain ⟨command, -, made⟩ := h.exists_command found
  exact List.all_eq_true.mp (isSpelled_of_slot made)

/-- So can every value. -/
theorem spelled_value (h : Accepted catalog commands slots kinds values)
    (hvalue : values[i]? = some value) : value.isSpelled = true :=
  h.settles.spelled value (List.mem_of_getElem? hvalue)

/-- A call whose earlier lines have their values gets its own. -/
theorem compute_eq (h : Accepted catalog commands slots kinds values)
    (wellTyped : catalog.WellTyped) {line : Option Int} {name : String} {operands : List Int}
    (found : slots[i]? = some ⟨i + 1, line, .call name operands⟩) (hvalue : values[i]? = some value)
    (holds : p.Holds (values.take i)) :
    p.compute catalog ⟨name, operands, line, i + 1⟩ = .ok value := by
  obtain ⟨command, hcommand, made⟩ := h.exists_command found
  obtain ⟨role, tokens, args, read⟩ := call_of_slot made
  obtain ⟨name', tokens', op, args', known, fits⟩ := h.callFits hcommand role
  have bound := (List.getElem?_eq_some_iff.mp hvalue).1
  have place : i + 1 = (values.take i).length + 1 := by
    rw [List.length_take, Nat.min_eq_left (Nat.le_of_lt bound)]
  obtain ⟨ground, rest, rfl, groundRole, -, first, -⟩ := h.exists_ground
  have hfirst : (values.take i).head? = some (.set (FinSet.ofList ground.args)) := by
    cases i with
    | zero =>
      cases hcommand
      rw [role] at groundRole
      cases groundRole
    | succ i => rw [List.head?_take, if_neg (by omega), first]
  obtain ⟨rfl, rfl⟩ := List.cons.inj (args.symm.trans args')
  have passes : callKind catalog ((values.take i).map Value.kind) command = .ok op.result :=
    callKind_eq_ok_iff.mpr ⟨name, tokens, op, args, known, fits, rfl⟩
  let call : Call := ⟨name, operands, line, i + 1⟩
  obtain ⟨value', computed, -, equation⟩ : ∃ value', p.compute catalog call = .ok value' ∧
      value'.kind = op.result ∧ Equation catalog (values.take i) command value' :=
    exists_compute_of_callKind wellTyped holds hfirst place role args
      (readAs_of_mapM fits.numbers read) passes
  have all := equation.append (values.drop i)
  rw [List.take_append_drop] at all
  obtain rfl : value' = value :=
    all.unique (h.settles.evaluates.solves.line i command value hcommand hvalue)
  exact computed

end Accepted

/-- A loaded program comes from the commands that are read, which are accepted. -/
theorem exists_read_of_load {text : String} {start : Program} (loaded : load text = .ok start) :
    ∃ commands slots kinds values, Source.read text = .ok commands ∧ start = ⟨slots⟩ ∧
      Accepted Catalog.standard commands slots kinds values := by
  obtain ⟨commands, found, loaded⟩ := bind_eq_ok_iff.mp loaded
  obtain ⟨checked, made⟩ := check_bind_eq_ok_iff.mp loaded
  obtain ⟨slots, kinds, values, accepted⟩ :=
    exists_accepted (validate_eq_none_iff.mpr checked)
  obtain rfl := Except.ok.inj (accepted.ofCommands_eq.symm.trans made)
  exact ⟨commands, slots, kinds, values, found, rfl, accepted⟩

/-- Loading a text whose commands are read fails exactly as their check does: commands that pass it
make a program. -/
theorem load_eq_error_iff {text : String} {commands : List Command} {fault : Fault}
    (found : Source.read text = .ok commands) :
    load text = .error fault ↔ check Catalog.standard commands = .error fault := by
  rw [load, found]
  show (check Catalog.standard commands >>= fun _ => ofCommands commands) = _ ↔ _
  rw [bind_eq_error_iff]
  refine ⟨fun failed => ?_, .inl⟩
  rcases failed with refused | ⟨_, checked, unmade⟩
  · exact refused
  · obtain ⟨slots, kinds, values, accepted⟩ :=
      exists_accepted (validate_eq_none_iff.mpr checked)
    cases accepted.ofCommands_eq.symm.trans unmade

/-- A loaded program comes from accepted commands. -/
theorem exists_accepted_of_load {text : String} {start : Program} (loaded : load text = .ok start) :
    ∃ commands slots kinds values, start = ⟨slots⟩ ∧
      Accepted Catalog.standard commands slots kinds values := by
  obtain ⟨commands, slots, kinds, values, -, made, accepted⟩ := exists_read_of_load loaded
  exact ⟨commands, slots, kinds, values, made, accepted⟩

end RelCalc.Program
