/-
  `Proofs.Evaluation.Slots`: commands made into slots.

  A slot is a declaration, which has its value from the start, or a call, which
  gets one when it is settled.  A declaration satisfies the equation of its command
  at once; a call keeps the name, and its operands are the numbers that the tokens
  of the command are read as.  The slot of a command stands in the line of the
  command, and its index is the number of this line.
-/
import RelCalc.Proofs.Evaluation.Call
import RelCalc.Proofs.Validation.Elements

set_option autoImplicit false

namespace RelCalc

open Outcome Validation

/-- A slot whose line has got a value: a call becomes a result, and anything else stays. -/
def Slot.settle (slot : Slot) (value : Value) : Slot :=
  match slot.content with
  | .call name _ => ⟨slot.index, slot.line, .result name value⟩
  | _ => slot

/-- The slots of lines that have all got values. -/
def settleAll (slots : List Slot) (values : List Value) : List Slot :=
  List.zipWith Slot.settle slots values

/-- Every call has a name, and its operands are read as numbers. -/
def ReadableCalls (commands : List Command) : Prop :=
  ∀ command ∈ commands, command.role? = some .call → ∃ name tokens, command.args = name :: tokens ∧
    ∀ token ∈ tokens, ∃ n, Text.readNatural token = .ok n

/-! ## One command -/

section Command

variable {command : Command} {slot : Slot} {index : Nat}

theorem content_of_ground (role : command.role? = some .ground) :
    command.content = .ok (.ground (FinSet.ofList command.args)) := by
  simp only [Command.content, role]

theorem content_of_set (role : command.role? = some .set) :
    command.content = .ok (.set (FinSet.ofList command.args)) := by
  simp only [Command.content, role]

theorem content_of_relation (role : command.role? = some .relation) {pairs : Relation}
    (paired : Relation.ofFlat? command.args = some pairs) :
    command.content = .ok (.relation pairs) := by
  simp only [Command.content, role, paired]

theorem content_of_halfPair (role : command.role? = some .relation)
    (odd : command.args.length % 2 = 1) :
    command.content = .error (.halfPair command.args.length) := by
  simp only [Command.content, role, Relation.ofFlat?_eq_none_iff.mpr odd]

theorem slot_eq_ok_iff :
    command.slot index = .ok slot ↔
      ∃ content, command.content = .ok content ∧ slot = ⟨index, command.line, content⟩ := by
  simp only [Command.slot, bind_eq_ok_iff, pure_eq_ok_iff]
  constructor
  · intro h
    obtain ⟨content, hcontent, rfl⟩ := h
    exact ⟨content, hcontent, rfl⟩
  · intro h
    obtain ⟨content, hcontent, rfl⟩ := h
    exact ⟨content, hcontent, rfl⟩

/-- The slot of a call holds the name and the operands that its tokens are read as. -/
theorem slot_of_call (role : command.role? = some .call) {name : String} {tokens : List String}
    (args : command.args = name :: tokens) :
    command.slot index = .ok slot ↔ ∃ operands, tokens.mapM readOperand = .ok operands ∧
      slot = ⟨index, command.line, .call name operands⟩ := by
  simp only [slot_eq_ok_iff, Command.content, role, args, readCall, bind_eq_ok_iff, pure_eq_ok_iff]
  constructor
  · intro h
    obtain ⟨_, ⟨operands, hoperands, rfl⟩, rfl⟩ := h
    exact ⟨operands, hoperands, rfl⟩
  · intro h
    obtain ⟨operands, hoperands, rfl⟩ := h
    exact ⟨_, ⟨operands, hoperands, rfl⟩, rfl⟩

/-- A slot that holds a call comes from a command that calls. -/
theorem call_of_slot {number : Nat} {line : Option Int} {name : String} {operands : List Int}
    (made : command.slot index = .ok ⟨number, line, .call name operands⟩) :
    command.role? = some .call ∧
      ∃ tokens, command.args = name :: tokens ∧ tokens.mapM readOperand = .ok operands := by
  obtain ⟨content, hcontent, same⟩ := slot_eq_ok_iff.mp made
  obtain ⟨rfl, rfl, rfl⟩ := Slot.mk.inj same
  unfold Command.content at hcontent
  split at hcontent
  · cases hcontent
  · cases hcontent
  · split at hcontent <;> cases hcontent
  · rename_i role
    refine ⟨role, ?_⟩
    cases args : command.args with
    | nil => simp [args, readCall] at hcontent
    | cons first tokens =>
      rw [args] at hcontent
      obtain ⟨numbers, read, same⟩ := bind_eq_ok_iff.mp hcontent
      cases same
      exact ⟨tokens, rfl, read⟩
  · cases hcontent

/-- The slot that a command becomes can be written again. -/
theorem isSpelled_of_slot (made : command.slot index = .ok slot) : slot.isSpelled = true := by
  obtain ⟨number, line, content⟩ := slot
  cases content with
  | call name operands =>
    obtain ⟨-, tokens, -, read⟩ := call_of_slot made
    refine List.all_eq_true.mpr ?_
    refine forall_mem_of_forall₂ (mapM_eq_ok_iff.mp read).flip fun operand token read => ?_
    exact isSpelled_of_readOperand read
  | result name value =>
    obtain ⟨content, hcontent, same⟩ := slot_eq_ok_iff.mp made
    cases same
    unfold Command.content at hcontent
    split at hcontent
    · cases hcontent
    · cases hcontent
    · split at hcontent <;> cases hcontent
    · cases args : command.args with
      | nil => simp [args, readCall] at hcontent
      | cons first tokens =>
        rw [args] at hcontent
        obtain ⟨numbers, -, same⟩ := bind_eq_ok_iff.mp hcontent
        cases same
    · cases hcontent
  | ground | set | relation => rfl

/-- The slot of a declaration has the value that the equation of the command states. -/
theorem slot_of_declaration {catalog : Catalog} {kind : Kind} (values : List Value)
    (static : staticKind? catalog command = some kind) (notCall : command.role? ≠ some .call)
    (hslot : command.slot index = .ok slot) :
    slot.content.isCall = false ∧ ∃ value, slot.value? = some value ∧ value.kind = kind ∧
      Equation catalog values command value := by
  obtain ⟨content, hcontent, rfl⟩ := slot_eq_ok_iff.mp hslot
  cases role : command.role? with
  | none => simp [staticKind?, role] at static
  | some known =>
    cases known with
    | ground =>
      rw [content_of_ground role, Except.ok.injEq] at hcontent
      simp only [staticKind?, role, Option.some.injEq] at static
      subst hcontent static
      exact ⟨rfl, _, rfl, rfl, .ground role⟩
    | set =>
      rw [content_of_set role, Except.ok.injEq] at hcontent
      simp only [staticKind?, role, Option.some.injEq] at static
      subst hcontent static
      exact ⟨rfl, _, rfl, rfl, .set role⟩
    | relation =>
      simp only [staticKind?, role, Option.some.injEq] at static
      cases paired : Relation.ofFlat? command.args with
      | none => simp [Command.content, role, paired] at hcontent
      | some pairs =>
        rw [content_of_relation role paired, Except.ok.injEq] at hcontent
        subst hcontent static
        exact ⟨rfl, _, rfl, rfl, .relation pairs role paired⟩
    | call => exact absurd role notCall

end Command

/-! ## Settled slots -/

section Settle

variable {slots : List Slot} {values : List Value} {slot : Slot} {value : Value}

theorem settle_of_value (h : slot.content.isCall = false) :
    slot.settle value = slot := by
  unfold Slot.settle
  split
  · rename_i content
    rw [content] at h
    cases h
  · rfl

/-- A slot keeps its index when it gets its value. -/
@[simp] theorem settle_index (slot : Slot) (value : Value) :
    (slot.settle value).index = slot.index := by
  unfold Slot.settle
  split <;> rfl

theorem settleAll_concat (length : slots.length = values.length) :
    settleAll (slots ++ [slot]) (values ++ [value]) =
      settleAll slots values ++ [slot.settle value] := by
  rw [settleAll, List.zipWith_append length]
  rfl

theorem length_settleAll (length : slots.length = values.length) :
    (settleAll slots values).length = slots.length := by
  rw [settleAll, List.length_zipWith, length, Nat.min_self]

theorem getElem?_settleAll {i : Nat} (hslot : slots[i]? = some slot)
    (hvalue : values[i]? = some value) :
    (settleAll slots values)[i]? = some (slot.settle value) := by
  rw [settleAll, List.getElem?_zipWith, hslot, hvalue]

end Settle

/-! ## All commands -/

/-- Tokens that are read as numbers become these numbers in the slot. -/
theorem readAs_of_mapM {tokens : List String} {operands : List Int}
    (numbers : ∀ token ∈ tokens, ∃ n, Text.readNatural token = .ok n)
    (h : tokens.mapM readOperand = .ok operands) : ReadAs tokens operands := by
  unfold ReadAs
  rw [mapM_eq_ok_iff, List.forall₂_iff_zip] at h
  refine List.forall₂_iff_zip.mpr ⟨h.1, ?_⟩
  intro token operand member
  obtain ⟨n, hn⟩ := numbers token (List.of_mem_zip member).1
  have hread : readOperand token = .ok operand := h.2 member
  rw [readOperand_of_readNatural hn] at hread
  exact ⟨n, hn, (Except.ok.inj hread).symm⟩

namespace Program

section SlotsOf

variable {commands more : List Command} {command : Command} {slots : List Slot} {slot : Slot}
  {i : Nat}

theorem slotsOf_eq_ok_iff : slotsOf commands = .ok slots ↔
    List.Forall₂ (fun (entry : Command × Nat) slot => entry.1.slot entry.2 = .ok slot)
      (commands.zipIdx 1) slots := mapM_eq_ok_iff

theorem length_slotsOf (made : slotsOf commands = .ok slots) : slots.length = commands.length := by
  rw [← (slotsOf_eq_ok_iff.mp made).length_eq, List.length_zipIdx]

/-- Each slot is made from the command in its place. -/
theorem forall₂_slotsOf (made : slotsOf commands = .ok slots) :
    List.Forall₂ (fun command slot => ∃ index, command.slot index = .ok slot) commands slots := by
  have fst : (commands.zipIdx 1).map Prod.fst = commands := List.zipIdx_map_fst 1 commands
  rw [← fst, List.forall₂_map_left_iff]
  exact (slotsOf_eq_ok_iff.mp made).imp fun entry slot hslot => ⟨entry.2, hslot⟩

/-- The slot of a command stands in the line of the command. -/
theorem exists_slot_of_slotsOf (made : slotsOf commands = .ok slots)
    (found : commands[i]? = some command) :
    ∃ slot, slots[i]? = some slot ∧ command.slot (i + 1) = .ok slot := by
  refine exists_right_of_forall₂ (slotsOf_eq_ok_iff.mp made) (a := (command, i + 1)) ?_
  rw [List.getElem?_zipIdx, found, Option.map_some, Nat.add_comm]

theorem exists_command_of_slotsOf (made : slotsOf commands = .ok slots)
    (found : slots[i]? = some slot) :
    ∃ command, commands[i]? = some command ∧ command.slot (i + 1) = .ok slot := by
  obtain ⟨⟨command, index⟩, held, hslot⟩ :=
    exists_left_of_forall₂ (slotsOf_eq_ok_iff.mp made) found
  rw [List.getElem?_zipIdx, Option.map_eq_some_iff] at held
  obtain ⟨_, held, ⟨⟩⟩ := held
  rw [Nat.add_comm] at hslot
  exact ⟨_, held, hslot⟩

/-- The slots of the first commands come first. -/
theorem slotsOf_append_eq_ok_iff :
    slotsOf (commands ++ command :: more) = .ok slots ↔
      ∃ earlier slot later, slotsOf commands = .ok earlier ∧
        command.slot (earlier.length + 1) = .ok slot ∧
          (more.zipIdx (commands.length + 2)).mapM (fun entry => entry.1.slot entry.2) = .ok later ∧
            slots = earlier ++ slot :: later := by
  have split : (commands ++ command :: more).zipIdx 1 = commands.zipIdx 1 ++
      (command, commands.length + 1) :: more.zipIdx (commands.length + 2) := by
    rw [List.zipIdx_append, List.zipIdx_cons, Nat.add_comm 1]
  rw [slotsOf, split, mapM_append_eq_ok_iff]
  simp only [List.mapM_cons, bind_eq_ok_iff, pure_eq_ok_iff]
  constructor
  · rintro ⟨earlier, _, hearlier, ⟨slot, hslot, later, hlater, rfl⟩, rfl⟩
    rw [← length_slotsOf hearlier] at hslot
    exact ⟨earlier, slot, later, hearlier, hslot, hlater, rfl⟩
  · rintro ⟨earlier, slot, later, hearlier, hslot, hlater, rfl⟩
    rw [length_slotsOf hearlier] at hslot
    exact ⟨earlier, _, hearlier, ⟨slot, hslot, later, hlater, rfl⟩, rfl⟩

theorem slotsOf_concat_eq_ok_iff :
    slotsOf (commands ++ [command]) = .ok slots ↔
      ∃ earlier slot, slotsOf commands = .ok earlier ∧
        command.slot (earlier.length + 1) = .ok slot ∧ slots = earlier ++ [slot] := by
  rw [slotsOf_append_eq_ok_iff]
  constructor
  · rintro ⟨earlier, slot, later, hearlier, hslot, hlater, rfl⟩
    cases hlater
    exact ⟨earlier, slot, hearlier, hslot, rfl⟩
  · rintro ⟨earlier, slot, hearlier, hslot, rfl⟩
    exact ⟨earlier, slot, [], hearlier, hslot, rfl, rfl⟩

theorem ofCommands_eq_ok_iff {p : Program} :
    ofCommands commands = .ok p ↔ slotsOf commands = .ok p.slots := by
  rw [ofCommands, bind_eq_ok_iff]
  constructor
  · rintro ⟨slots, made, ⟨⟩⟩
    exact made
  · exact fun made => ⟨p.slots, made, rfl⟩

/-- The index of every slot is the number of its line. -/
def Indexed (p : Program) : Prop :=
  ∀ (i : Nat) (slot : Slot), p.slots[i]? = some slot → slot.index = i + 1

/-- Slots are made with the number of their line. -/
theorem indexed_ofCommands {p : Program} (made : ofCommands commands = .ok p) : p.Indexed := by
  intro i slot found
  obtain ⟨command, -, hslot⟩ := exists_command_of_slotsOf (ofCommands_eq_ok_iff.mp made) found
  obtain ⟨content, -, rfl⟩ := slot_eq_ok_iff.mp hslot
  rfl

end SlotsOf

/-- Commands with a role, paired relations and readable calls become slots. -/
theorem exists_slots {commands : List Command}
    (known : ∀ command ∈ commands, command.role? ≠ none)
    (declared : checkDeclaredElements commands = .ok ()) (readable : ReadableCalls commands) :
    ∃ slots, slotsOf commands = .ok slots := by
  refine exists_mapM_eq_ok fun (command, index) inside => ?_
  have member : command ∈ commands := List.fst_mem_of_mem_zipIdx inside
  cases role : command.role? with
  | none => exact absurd role (known command member)
  | some found =>
    cases found with
    | ground => exact ⟨_, slot_eq_ok_iff.mpr ⟨_, content_of_ground role, rfl⟩⟩
    | set => exact ⟨_, slot_eq_ok_iff.mpr ⟨_, content_of_set role, rfl⟩⟩
    | relation =>
      cases commands with
      | nil => cases member
      | cons ground rest =>
        have declaration := checkDeclaredElements_cons_eq_ok_iff.mp declared command member
          (declares_iff.mpr (.inr role))
        cases declaration with
        | set other => simp [role] at other
        | relation pairs _ _ paired _ =>
          have hpairs : Relation.ofFlat? command.args = some (FinSet.ofList pairs) := by
            rw [Relation.ofFlat?, pairUp?_eq_some_iff.mpr paired]
            rfl
          exact ⟨_, slot_eq_ok_iff.mpr ⟨_, content_of_relation role hpairs, rfl⟩⟩
    | call =>
      obtain ⟨name, tokens, args, numbers⟩ := readable command member role
      obtain ⟨operands, hoperands⟩ : ∃ operands, tokens.mapM readOperand = .ok operands := by
        refine exists_mapM_eq_ok fun token inside => ?_
        obtain ⟨n, hn⟩ := numbers token inside
        exact ⟨n, readOperand_of_readNatural hn⟩
      exact ⟨_, (slot_of_call role args).mpr ⟨operands, hoperands, rfl⟩⟩

end Program

end RelCalc
