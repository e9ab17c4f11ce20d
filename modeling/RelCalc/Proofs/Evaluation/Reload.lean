/-
  `Proofs.Evaluation.Reload`: a loaded program, printed and loaded again.

  A program is printed from what its slots hold, not from the words it was read from.
  The check makes sure that this loses nothing but leading zeros: declarations repeat
  nothing, so that dropping repeats drops nothing, and operands are positive numbers.
  So the lines of the listing restate the commands, and the program that is loaded from
  them has slots of the same contents, numbered as they were printed.
-/
import RelCalc.Proofs.Evaluation.Restated
import RelCalc.Proofs.Source.Printed

set_option autoImplicit false

namespace RelCalc

open Outcome Validation

/-- A command with its operands written without leading zeros. -/
def Command.plain (command : Command) : Command :=
  match command.role?, command.args with
  | some .call, name :: tokens => { command with args := name :: tokens.map Text.trimZeros }
  | _, _ => command

/-- A program whose source lines are the lines of its listing. -/
def Program.relined (p : Program) : Program :=
  ⟨(p.slots.zipIdx 1).map fun entry => ⟨entry.2, some (entry.2 : Int), entry.1.content⟩⟩

/-! ## Commands that are let through -/

section Commands

open Source

/-- What the check makes sure of in a command, as far as its own words tell. -/
inductive Proper (command : Command) : Prop where
  | set (role : command.role? = some .ground ∨ command.role? = some .set)
      (words : ∀ element ∈ command.args, IsWord element) (distinct : command.args.Nodup)
  | relation (pairs : List (Element × Element)) (role : command.role? = some .relation)
      (words : ∀ element ∈ command.args, IsWord element)
      (paired : command.args = Relation.flatten pairs) (distinct : pairs.Nodup)
  | call (name : String) (tokens : List String) (role : command.role? = some .call)
      (args : command.args = name :: tokens) (word : IsWord name)
      (numbers : ∀ token ∈ tokens, ∃ n, Text.readNatural token = .ok n ∧ 1 ≤ n)

theorem isWord_of_isElement {catalog : Catalog} {element : Element}
    (h : IsElement catalog element) : IsWord element := by
  refine isWord_of_isAlphanum (fun empty => ?_) fun c member => ?_
  · have length := h.nonempty
    rw [← String.length_toList, empty] at length
    cases length
  · rw [Char.isAlphanum, h.letters c member, Bool.true_or]

theorem isWord_of_denotes {token : String} {n : Nat} (h : Text.Denotes token n) : IsWord token := by
  obtain ⟨nonempty, digits, -⟩ := h
  refine isWord_of_isAlphanum nonempty fun c member => ?_
  rw [Char.isAlphanum, digits c member, Bool.or_true]

theorem isWord_letter (role : Role) : IsWord role.letter := by
  cases role <;> exact isWord_of_isAlphanum (by decide) (List.all_eq_true.mp (by decide))

/-- The names of the standard operations are words. -/
theorem isWord_of_mem_standard {name : String} (member : name ∈ Catalog.standard.names) :
    IsWord name := by
  have each : ∀ name ∈ Catalog.standard.names, name.toList ≠ [] ∧
      (name.toList.all fun c => !Text.isBlank c) = true ∧ name.toList.head? ≠ some '#' := by
    decide +kernel
  obtain ⟨nonempty, solid, start⟩ := each name member
  exact ⟨nonempty, by simpa using solid, start⟩

/-- Accepted commands are proper. -/
theorem Program.Accepted.proper {commands : List Command} {slots : List Slot} {kinds : List Kind}
    {values : List Value} (h : Accepted Catalog.standard commands slots kinds values) :
    ∀ command ∈ commands, Proper command := by
  obtain ⟨shape, elements, declared, -⟩ := check_eq_ok_iff.mp (validate_eq_none_iff.mp h.validated)
  obtain ⟨ground, rest, rfl, groundRole, others⟩ := shape.cons_ground
  obtain ⟨each, distinct⟩ := checkGroundElements_cons_eq_ok_iff.mp elements
  have declarations := checkDeclaredElements_cons_eq_ok_iff.mp declared
  have words {command : Command} (inside : ∀ element ∈ command.args, element ∈ ground.args) :
      ∀ element ∈ command.args, IsWord element :=
    fun element member => isWord_of_isElement (each element (inside element member))
  intro command member
  cases role : command.role? with
  | none => exact absurd role (checkKnownRoles_eq_ok_iff.mp shape.known_roles command member)
  | some known =>
    cases known with
    | ground =>
      rcases List.mem_cons.mp member with rfl | later
      · exact .set (.inl role) (words fun element inside => inside) distinct
      · exact absurd role (others command later)
    | set =>
      cases declarations command member (declares_iff.mpr (.inl role)) with
      | set _ inside distinct => exact .set (.inr role) (words inside) distinct
      | relation pairs other => simp [role] at other
    | relation =>
      cases declarations command member (declares_iff.mpr (.inr role)) with
      | set other => simp [role] at other
      | relation pairs _ inside paired distinct =>
        exact .relation pairs role (words inside) paired distinct
    | call =>
      obtain ⟨i, found⟩ := List.getElem?_of_mem member
      obtain ⟨name, tokens, op, operands, value, applies⟩ := h.exists_applies found role
      obtain ⟨known, named⟩ := Catalog.mem_and_name_of_find? applies.found
      have word := isWord_of_mem_standard (List.mem_map_of_mem (f := Operation.name) known)
      refine .call name tokens role applies.args (named ▸ word) fun token inside => ?_
      obtain ⟨n, read, positive, -⟩ := applies.numbers token inside
      exact ⟨n, read, positive⟩

namespace Proper

variable {command : Command} {index : Nat} {slot : Slot}

theorem plain_of_not_call (role : command.role? ≠ some .call) : command.plain = command := by
  unfold Command.plain
  split
  · rename_i call _
    exact absurd call role
  · rfl

theorem plain_of_call {name : String} {tokens : List String} (role : command.role? = some .call)
    (args : command.args = name :: tokens) :
    command.plain = { command with args := name :: tokens.map Text.trimZeros } := by
  simp only [Command.plain, role, args]

/-- A proper command is restated without leading zeros, on whatever line. -/
theorem restates_plain (h : Proper command) (line : Option Int) :
    Restates command { command.plain with line := line } := by
  cases h with
  | set role =>
    have notCall : command.role? ≠ some .call := by rcases role with role | role <;> simp [role]
    rw [plain_of_not_call notCall]
    exact ⟨rfl, fun _ => rfl, fun role => absurd role notCall⟩
  | relation _ role =>
    have notCall : command.role? ≠ some .call := by simp [role]
    rw [plain_of_not_call notCall]
    exact ⟨rfl, fun _ => rfl, fun role => absurd role notCall⟩
  | call name tokens role args _ numbers =>
    rw [plain_of_call role args]
    refine ⟨rfl, fun notCall => absurd role notCall, fun _ => ⟨name, tokens, _, args, rfl, ?_⟩⟩
    refine List.forall₂_map_right_iff.mpr (List.forall₂_same.mpr fun token member => ?_)
    obtain ⟨n, read, positive⟩ := numbers token member
    exact ⟨n, read, Text.readNatural_trimZeros read positive⟩

/-- The words that are printed for a proper command are words. -/
theorem isWord_plain (h : Proper command) :
    ∀ word ∈ command.plain.word :: command.plain.args, IsWord word := by
  have first {role : Role} (hrole : command.role? = some role) : IsWord command.word :=
    Role.eq_letter_of_ofWord? hrole ▸ isWord_letter role
  cases h with
  | set role words =>
    have notCall : command.role? ≠ some .call := by rcases role with role | role <;> simp [role]
    rw [plain_of_not_call notCall]
    exact List.forall_mem_cons.mpr ⟨role.elim first first, words⟩
  | relation _ role words =>
    rw [plain_of_not_call (by simp [role])]
    exact List.forall_mem_cons.mpr ⟨first role, words⟩
  | call name tokens role args word numbers =>
    rw [plain_of_call role args]
    refine List.forall_mem_cons.mpr ⟨first role, List.forall_mem_cons.mpr ⟨word, ?_⟩⟩
    refine List.forall_mem_map.mpr fun token member => ?_
    obtain ⟨n, read, positive⟩ := numbers token member
    exact isWord_of_denotes ((Text.Denotes.of_read read).trimZeros positive)

/-- The operands that tokens are read as are printed as these tokens without leading zeros. -/
theorem map_toString_operands {tokens : List String} {operands : List Int}
    (numbers : ∀ token ∈ tokens, ∃ n, Text.readNatural token = .ok n ∧ 1 ≤ n)
    (made : tokens.mapM readOperand = .ok operands) :
    operands.map toString = tokens.map Text.trimZeros := by
  have both := (List.forall₂_and_left _ _).mpr ⟨numbers, mapM_eq_ok_iff.mp made⟩
  refine map_eq_of_forall₂ both ?_
  rintro token operand ⟨⟨n, read, positive⟩, hread⟩
  rw [readOperand_of_readNatural read] at hread
  cases hread
  rw [(Text.Denotes.of_read read).trimZeros_eq positive]
  rfl

/-- A declaration prints its letter and its words. -/
theorem letterLine_args {role : Role} (hrole : command.role? = some role) (declares : role ≠ .call)
    (words : ∀ element ∈ command.args, IsWord element) :
    letterLine role.letter (Text.unwords command.args) = command.plain.text := by
  have notCall : command.role? ≠ some .call := by
    rw [hrole]
    simpa using declares
  rw [plain_of_not_call notCall, Command.text, Role.eq_letter_of_ofWord? hrole,
    letterLine_unwords _ words]

/-- The slot of a proper command prints the command, without leading zeros. -/
theorem text_eq (h : Proper command) (made : command.slot index = .ok slot) :
    slot.text = command.plain.text := by
  cases h with
  | set role words distinct =>
    have elements : (FinSet.ofList command.args).toList = command.args :=
      FinSet.toList_ofList_of_nodup distinct
    obtain ⟨content, hcontent, rfl⟩ := slot_eq_ok_iff.mp made
    rcases role with role | role
    · rw [content_of_ground role] at hcontent
      cases hcontent
      show letterLine Role.ground.letter (Text.unwords _) = _
      rw [elements, letterLine_args role (by decide) words]
    · rw [content_of_set role] at hcontent
      cases hcontent
      show letterLine Role.set.letter (Text.unwords _) = _
      rw [elements, letterLine_args role (by decide) words]
  | relation pairs role words paired distinct =>
    have hpairs : Relation.ofFlat? command.args = some (FinSet.ofList pairs) := by
      rw [Relation.ofFlat?, pairUp?_eq_some_iff.mpr paired]
      rfl
    have components : Relation.toFlat (FinSet.ofList pairs) = command.args := by
      rw [Relation.toFlat, FinSet.toList_ofList_of_nodup distinct, paired]
    obtain ⟨content, hcontent, rfl⟩ := slot_eq_ok_iff.mp made
    rw [content_of_relation role hpairs] at hcontent
    cases hcontent
    show letterLine Role.relation.letter (Text.unwords _) = _
    rw [components, letterLine_args role (by decide) words]
  | call name tokens role args _ numbers =>
    obtain ⟨operands, hoperands, rfl⟩ := (slot_of_call role args).mp made
    rw [plain_of_call role args, Command.text, Role.eq_letter_of_ofWord? role,
      ← map_toString_operands numbers hoperands]
    rfl

end Proper

end Commands

/-! ## The program that is loaded again -/

section Reload

open Program

variable {commands : List Command} {slots : List Slot}

theorem relined_map_plain (commands : List Command) : Source.relined (commands.map Command.plain) =
    (commands.zipIdx 1).map fun entry => { entry.1.plain with line := some (entry.2 : Int) } := by
  rw [Source.relined, List.zipIdx_map, List.map_map]
  rfl

/-- The number of a command is its line. -/
theorem zipIdx_relined_plain (commands : List Command) :
    (Source.relined (commands.map Command.plain)).zipIdx 1 = (commands.zipIdx 1).map
      fun entry => ({ entry.1.plain with line := some (entry.2 : Int) }, entry.2) := by
  refine List.ext_getElem? fun i => ?_
  rw [relined_map_plain, List.getElem?_zipIdx, List.getElem?_map, List.getElem?_map,
    List.getElem?_zipIdx]
  cases commands[i]? <;> rfl

/-- The commands that are read from the listing restate those of the program. -/
theorem restates_relined (proper : ∀ command ∈ commands, Proper command) :
    List.Forall₂ Restates commands (Source.relined (commands.map Command.plain)) := by
  have fst : (commands.zipIdx 1).map Prod.fst = commands := List.zipIdx_map_fst 1 commands
  rw [relined_map_plain]
  conv => arg 2; rw [← fst]
  rw [List.forall₂_map_left_iff, List.forall₂_map_right_iff, List.forall₂_same]
  intro entry member
  exact (proper entry.1 (List.fst_mem_of_mem_zipIdx member)).restates_plain _

/-- The slots are numbered as they are in the program. -/
theorem slots_relined {p : Program} (indexed : p.Indexed) :
    p.relined.slots =
      p.slots.map fun slot => ⟨slot.index, some (slot.index : Int), slot.content⟩ := by
  refine List.ext_getElem? fun i => ?_
  rw [relined, List.getElem?_map, List.getElem?_map, List.getElem?_zipIdx]
  cases found : p.slots[i]? with
  | none => rfl
  | some slot =>
    rw [Option.map_some, Option.map_some, Option.map_some, indexed i slot found, Nat.add_comm]

/-- They make slots of the same contents, on the lines of the listing. -/
theorem ofCommands_relined (proper : ∀ command ∈ commands, Proper command)
    (made : slotsOf commands = .ok slots) :
    ofCommands (Source.relined (commands.map Command.plain)) = .ok (relined ⟨slots⟩) := by
  have indexed : Indexed ⟨slots⟩ := indexed_ofCommands (ofCommands_of_slots made)
  have numbered : ∀ entry ∈ commands.zipIdx 1, Proper entry.1 :=
    fun entry member => proper entry.1 (List.fst_mem_of_mem_zipIdx member)
  have both := (List.forall₂_and_left _ _).mpr ⟨numbered, slotsOf_eq_ok_iff.mp made⟩
  rw [ofCommands_eq_ok_iff, slotsOf_eq_ok_iff, zipIdx_relined_plain, slots_relined indexed,
    List.forall₂_map_left_iff, List.forall₂_map_right_iff]
  refine both.imp ?_
  rintro ⟨command, index⟩ slot ⟨hproper, hslot⟩
  obtain ⟨content, hcontent, rfl⟩ := slot_eq_ok_iff.mp hslot
  refine slot_eq_ok_iff.mpr ⟨content, ?_, rfl⟩
  exact (hproper.restates_plain _).content_eq.trans hcontent

/-- The slots hold what they held. -/
theorem contents_relined (p : Program) : List.Forall₂ (fun slot slot' =>
    slot'.content = slot.content) p.slots p.relined.slots := by
  have fst : (p.slots.zipIdx 1).map Prod.fst = p.slots := List.zipIdx_map_fst 1 p.slots
  conv => arg 2; rw [← fst]
  rw [relined, List.forall₂_map_left_iff, List.forall₂_map_right_iff, List.forall₂_same]
  exact fun entry _ => rfl

/-- Slots print what they hold, wherever they come from. -/
theorem listing_relined (p : Program) : p.relined.listing = p.listing :=
  map_eq_of_forall₂ (contents_relined p) fun _ _ same => congrArg Content.text same

/-- So do slots that have been settled. -/
theorem map_text_settleAll {slots' : List Slot} (same : List.Forall₂ (fun slot slot' =>
      slot'.content = slot.content) slots slots') (values : List Value) :
    (settleAll slots' values).map Slot.text = (settleAll slots values).map Slot.text := by
  unfold settleAll
  induction same generalizing values with
  | nil => rfl
  | @cons slot slot' rest rest' first _ ih =>
    cases values with
    | nil => rfl
    | cons value values =>
      rw [List.zipWith_cons_cons, List.zipWith_cons_cons, List.map_cons, List.map_cons, ih values]
      congr 1
      unfold Slot.text Slot.settle
      rw [first]
      cases slot.content with
      | call => rfl
      | ground | set | relation | result => exact congrArg Content.text first

/-- An accepted program that is loaded from a text is run to its end. -/
theorem runText_of_accepted {text : String} {kinds : List Kind} {values : List Value}
    (loaded : load text = .ok ⟨slots⟩)
    (h : Accepted Catalog.standard commands slots kinds values) :
    runText text = .ok ((settleAll slots values).map Slot.text) := by
  rw [runText, loaded]
  show (evaluateAll ⟨slots⟩ Catalog.standard >>= fun done => return done.listing) = _
  rw [evaluateAll, h.settles.run_eq]
  rfl

/-- A text whose commands are accepted is run to its end. -/
theorem runText_of_read {text : String} {kinds : List Kind} {values : List Value}
    (found : Source.read text = .ok commands)
    (h : Accepted Catalog.standard commands slots kinds values) :
    runText text = .ok ((settleAll slots values).map Slot.text) := by
  have checked := validate_eq_none_iff.mp h.validated
  refine runText_of_accepted ?_ h
  simp only [load, found, bind, Except.bind, checked, h.ofCommands_eq]

/-- Commands that are refused refuse their text. -/
theorem runText_of_check_error {text : String} {fault : Fault}
    (found : Source.read text = .ok commands)
    (refused : check Catalog.standard commands = .error fault) : runText text = .error fault := by
  rw [runText, (load_eq_error_iff found).mpr refused]
  rfl

/-- **Printing and loading again preserves a program.**  Each line of the listing of a loaded
program is the command it was read from, the operands of calls without leading zeros.  The text
of the listing is loaded again, as a program whose slots hold the same and whose source lines
are the lines of the listing; it prints the same, and its run prints what the run of the first
text does. -/
theorem load_text_of_load {text : String} {p : Program} (loaded : load text = .ok p) :
    (∃ commands, Source.read text = .ok commands ∧
      p.listing = commands.map fun command => command.plain.text) ∧
    load p.text = .ok p.relined ∧ p.relined.listing = p.listing ∧
    ∃ lines, runText text = .ok lines ∧ runText p.text = .ok lines := by
  obtain ⟨commands, hread, later⟩ := bind_eq_ok_iff.mp loaded
  obtain ⟨checked, made⟩ := check_bind_eq_ok_iff.mp later
  obtain ⟨slots, kinds, values, h⟩ :=
    exists_accepted (validate_eq_none_iff.mpr checked)
  obtain rfl := Except.ok.inj (h.ofCommands_eq.symm.trans made)
  have proper := h.proper
  have listed : listing ⟨slots⟩ = commands.map fun command => command.plain.text := by
    refine map_eq_of_forall₂ ((List.forall₂_and_left _ _).mpr
      ⟨proper, forall₂_slotsOf h.slots_eq⟩) ?_
    rintro command slot ⟨hproper, index, hslot⟩
    exact hproper.text_eq hslot
  let others := Source.relined (commands.map Command.plain)
  have printed : Program.text ⟨slots⟩ = Source.print (commands.map Command.plain) := by
    rw [Program.text, listed, Source.print, List.map_map]
    rfl
  have again : Source.read (Program.text ⟨slots⟩) = .ok others := by
    rw [printed]
    exact Source.read_print (List.forall_mem_map.mpr fun command member =>
      (proper command member).isWord_plain)
  have restated : List.Forall₂ Restates commands others := restates_relined proper
  have checked' := check_of_restates restated checked
  have made' : ofCommands others = .ok (relined ⟨slots⟩) := ofCommands_relined proper h.slots_eq
  have loaded' : load (Program.text ⟨slots⟩) = .ok (relined ⟨slots⟩) := by
    rw [load, again]
    exact check_bind_eq_ok_iff.mpr ⟨checked', made'⟩
  obtain ⟨slots', kinds', values', h'⟩ :=
    exists_accepted (validate_eq_none_iff.mpr checked')
  obtain rfl : values' = values := values_of_restates restated h h'
  obtain rfl : slots' = (relined ⟨slots⟩).slots :=
    congrArg Program.slots (Except.ok.inj (h'.ofCommands_eq.symm.trans made'))
  refine ⟨⟨commands, hread, listed⟩, loaded', listing_relined ⟨slots⟩, _,
    runText_of_accepted loaded h, ?_⟩
  rw [runText_of_accepted loaded' h']
  exact congrArg Except.ok (map_text_settleAll (contents_relined ⟨slots⟩) values')

/-- A program text with blanks, a comment and zeros that its listing has not. -/
def looseText : String := "  U a  b\r\n# nothing here\nS\n\nR a b a a\nC\tcard 0002 # empty"

/-- The program of this text. -/
def looseProgram : Program :=
  ⟨[⟨1, some 1, .ground (FinSet.ofList ["a", "b"])⟩, ⟨2, some 3, .set (FinSet.ofList [])⟩,
    ⟨3, some 5, .relation (FinSet.ofList [("a", "b"), ("a", "a")])⟩,
    ⟨4, some 6, .call "card" [2]⟩]⟩

/-- It is loaded again from its listing, as lines 1 to 4. -/
theorem load_text_of_load_looseText :
    load looseText = .ok looseProgram ∧ load looseProgram.text = .ok looseProgram.relined ∧
      looseProgram.listing = ["U a b", "S", "R a b a a", "C card 2"] ∧
      ∃ lines, runText looseText = .ok lines ∧ runText looseProgram.text = .ok lines := by
  have loaded : load looseText = .ok looseProgram := by decide +kernel
  obtain ⟨-, again, -, runs⟩ := load_text_of_load loaded
  exact ⟨loaded, again, by decide +kernel, runs⟩

end Reload

end RelCalc
