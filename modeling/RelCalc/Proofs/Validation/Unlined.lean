/-
  `Proofs.Validation.Unlined`: validation does not look at the lines of commands.

  Every rule is checked on the words of the commands and on their positions in the list.
  The source line of a command goes into the diagnostic about it and nowhere else.  So
  taking the lines away before the check, or from the diagnostic after it, gives the
  same outcome; and two lists of the same commands, on whatever lines, are both accepted
  or refused for the same cause at the same position.
-/
import RelCalc.Proofs.Validation.Placement

set_option autoImplicit false

namespace RelCalc

/-- A command without its line. -/
def Command.unlined (command : Command) : Command := { command with line := none }

@[simp] theorem Command.role?_unlined (command : Command) :
    command.unlined.role? = command.role? := rfl

@[simp] theorem Command.args_unlined (command : Command) :
    command.unlined.args = command.args := rfl

/-- A fault without the line of its diagnostic. -/
def Fault.unlined : Fault → Fault
  | .diagnostic d => .diagnostic { d with line := none }
  | fault => fault

/-- A fault that two lists of commands end with, on the lines that each of them has.  It has one
cause, and so one category, rule and message. -/
inductive Alike (commands others : List Command) : Fault → Fault → Prop where
  /-- A fault that is no diagnostic has no line. -/
  | fault {fault : Fault} (plain : fault.diagnostic? = none) : Alike commands others fault fault
  /-- A diagnostic about a list as a whole. -/
  | whole (cause : Cause) :
      Alike commands others (.diagnostic ⟨cause, none, none⟩) (.diagnostic ⟨cause, none, none⟩)
  /-- A diagnostic about the commands in one place. -/
  | command {i : Nat} {command other : Command} (cause : Cause)
      (found : commands[i]? = some command) (found' : others[i]? = some other) :
      Alike commands others (.diagnostic (Validation.blame command i cause))
        (.diagnostic (Validation.blame other i cause))

theorem Alike.message_eq {commands others : List Command} {fault fault' : Fault}
    (h : Alike commands others fault fault') : fault'.message = fault.message := by
  cases h <;> rfl

namespace Fault

variable {fault fault' : Fault} {d : Diagnostic}

theorem eq_diagnostic (found : fault.diagnostic? = some d) : fault = .diagnostic d := by
  cases fault <;> cases found
  rfl

/-- A fault that is no diagnostic has no line to take away. -/
theorem unlined_of_plain (plain : fault.diagnostic? = none) : fault.unlined = fault := by
  cases fault <;> first | rfl | cases plain

theorem diagnostic?_unlined (fault : Fault) :
    fault.unlined.diagnostic? = fault.diagnostic?.map fun d => { d with line := none } := by
  cases fault <;> rfl

/-- Faults that differ in their lines only are one, or diagnostics of one cause and position. -/
theorem eq_or_diagnostics_of_unlined (same : fault'.unlined = fault.unlined) :
    fault.diagnostic? = none ∧ fault' = fault ∨
      ∃ d d' : Diagnostic, fault = .diagnostic d ∧ fault' = .diagnostic d' ∧
        d'.cause = d.cause ∧ d'.index = d.index := by
  have both := congrArg Fault.diagnostic? same
  rw [diagnostic?_unlined, diagnostic?_unlined] at both
  cases plain : fault.diagnostic? with
  | none =>
    rw [plain, Option.map_none, Option.map_eq_none_iff] at both
    rw [unlined_of_plain plain, unlined_of_plain both] at same
    exact .inl ⟨rfl, same⟩
  | some d =>
    rw [plain, Option.map_some, Option.map_eq_some_iff] at both
    obtain ⟨d', found', equal⟩ := both
    obtain ⟨cause, -, index⟩ := Diagnostic.mk.inj equal
    exact .inr ⟨d, d', eq_diagnostic plain, eq_diagnostic found', cause, index⟩

end Fault

/-- Commands are the same when only their lines may differ. -/
theorem Command.same_iff_unlined {command other : Command} :
    command.same other = true ↔ command.unlined = other.unlined := by
  simp [Command.same, Command.unlined]

/-- Lists of the same commands differ in their lines only. -/
theorem map_unlined_of_same {commands others : List Command}
    (same : List.Forall₂ (fun command other => command.same other = true) commands others) :
    others.map Command.unlined = commands.map Command.unlined :=
  Outcome.map_eq_of_forall₂ same fun _ _ h => (Command.same_iff_unlined.mp h).symm

namespace Validation

open Outcome

/-! ## Positions -/

section Positions

variable (commands : List Command)

theorem number_unlined : number (commands.map Command.unlined) =
    (number commands).map (Prod.map Command.unlined id) := List.zipIdx_map

/-- The positions of a role are counted without the lines. -/
theorem positionsOf_unlined (role : Role) :
    positionsOf role (commands.map Command.unlined) = positionsOf role commands := by
  rw [positionsOf, number_unlined, List.filter_map, List.map_map]
  rfl

theorem any_unlined (test : Command → Bool)
    (blind : ∀ command : Command, test command.unlined = test command) :
    (commands.map Command.unlined).any test = commands.any test := by
  rw [List.any_map]
  exact congrArg commands.any (funext blind)

theorem find?_number_unlined (test : Command × Nat → Bool)
    (blind : ∀ command position, test (command.unlined, position) = test (command, position)) :
    (number (commands.map Command.unlined)).find? test =
      ((number commands).find? test).map (Prod.map Command.unlined id) := by
  have same : test ∘ Prod.map Command.unlined id = test := funext fun entry => blind entry.1 entry.2
  rw [number_unlined, List.find?_map, same]

/-- A violation at a position is on the line that the command there has. -/
theorem violationAt_unlined (cause : Cause) (position : Nat) :
    violationAt cause (commands.map Command.unlined) position =
      (violationAt cause commands position).mapError Fault.unlined := by
  unfold violationAt
  rw [List.getElem?_map]
  cases commands[position - 1]? <;> rfl

end Positions

/-! ## The rules -/

section Rules

variable {catalog : Catalog} (commands : List Command)

theorem checkSize_unlined :
    checkSize (commands.map Command.unlined) = (checkSize commands).mapError Fault.unlined := by
  unfold checkSize
  simp only [List.map_eq_nil_iff, List.length_map]
  split
  · rfl
  · split
    · exact violationAt_unlined _ _ _
    · rfl

theorem checkOneGround_unlined : checkOneGround (commands.map Command.unlined) =
    (checkOneGround commands).mapError Fault.unlined := by
  unfold checkOneGround
  rw [positionsOf_unlined]
  split
  · rfl
  · rfl
  · exact violationAt_unlined _ _ _

theorem checkKnownRoles_unlined : checkKnownRoles (commands.map Command.unlined) =
    (checkKnownRoles commands).mapError Fault.unlined := by
  unfold checkKnownRoles
  rw [find?_number_unlined commands _ fun _ _ => rfl]
  cases (number commands).find? fun entry => decide (entry.1.role? = none) with
  | none => rfl
  | some entry => exact violationAt_unlined _ _ _

theorem checkLateDeclarations_unlined : checkLateDeclarations (commands.map Command.unlined) =
    (checkLateDeclarations commands).mapError Fault.unlined := by
  unfold checkLateDeclarations
  rw [positionsOf_unlined]
  cases positionsOf .call commands with
  | nil => rfl
  | cons firstCall _ =>
    dsimp only
    rw [find?_number_unlined commands _ fun _ _ => rfl]
    cases (number commands).find? fun entry =>
        decide (firstCall < entry.2) && decide (entry.1.role? ≠ some .call) with
    | none => rfl
    | some entry =>
      obtain ⟨command, position⟩ := entry
      simp only [Option.map_some, Prod.map, Command.role?_unlined]
      cases command.role? with
      | none => rfl
      | some role => exact violationAt_unlined _ _ _

theorem checkOrder_unlined :
    checkOrder (commands.map Command.unlined) = (checkOrder commands).mapError Fault.unlined := by
  cases commands with
  | nil => rfl
  | cons first rest =>
    rw [List.map_cons, checkOrder, checkOrder, Command.role?_unlined]
    split
    · exact checkLateDeclarations_unlined (first :: rest)
    · exact violationAt_unlined (first :: rest) _ _

theorem checkHasCall_unlined : checkHasCall (commands.map Command.unlined) =
    (checkHasCall commands).mapError Fault.unlined := by
  unfold checkHasCall
  rw [any_unlined commands _ fun _ => rfl]
  split <;> rfl

theorem checkHasDeclaration_unlined : checkHasDeclaration (commands.map Command.unlined) =
    (checkHasDeclaration commands).mapError Fault.unlined := by
  unfold checkHasDeclaration
  rw [any_unlined commands _ fun _ => rfl]
  split <;> rfl

theorem checkTwoRoles_unlined : checkTwoRoles (commands.map Command.unlined) =
    (checkTwoRoles commands).mapError Fault.unlined := by
  unfold checkTwoRoles
  simp only [List.map_map, Function.comp_def, Command.role?_unlined]
  split <;> rfl

theorem checkGroundElements_unlined :
    checkGroundElements catalog (commands.map Command.unlined) =
      (checkGroundElements catalog commands).mapError Fault.unlined := by
  cases commands with
  | nil => rfl
  | cons ground rest =>
    rw [List.map_cons, checkGroundElements, checkGroundElements, Command.args_unlined]
    cases firstDefect? catalog [] ground.args <;> rfl

/-- A check of each command that does not look at lines reports the same command. -/
theorem checkEach_unlined {defect? : Command → Option Cause}
    (blind : ∀ command, defect? command.unlined = defect? command) (entries : Numbered) :
    checkEach defect? (entries.map (Prod.map Command.unlined id)) =
      (checkEach defect? entries).mapError Fault.unlined := by
  induction entries with
  | nil => rfl
  | cons entry rest ih =>
    obtain ⟨command, position⟩ := entry
    rw [List.map_cons, Prod.map, checkEach, checkEach, blind]
    cases defect? command with
    | none => exact ih
    | some cause => rfl

theorem checkDeclaredElements_unlined : checkDeclaredElements (commands.map Command.unlined) =
    (checkDeclaredElements commands).mapError Fault.unlined := by
  cases commands with
  | nil => rfl
  | cons ground rest =>
    rw [checkDeclaredElements, ← checkEach_unlined (fun _ => rfl), ← number_unlined]
    rfl

end Rules

/-! ## Calls -/

section Calls

variable {catalog : Catalog} {kinds : List Kind} {op : Operation} {name token : String}
  {report : Cause → Fault}

/-- An operand is refused for the same reason, whatever lines the report has. -/
theorem checkOperand_unlined {position : Nat} {expected : Kind} :
    checkOperand kinds op name (Fault.unlined ∘ report) position token expected =
      (checkOperand kinds op name report position token expected).mapError Fault.unlined := by
  unfold checkOperand
  split
  · rfl
  · rfl
  · split
    · rfl
    · split
      · rfl
      · split
        · rfl
        · split <;> rfl

theorem checkOperands_unlined {position : Nat} {pairs : List (String × Kind)} :
    checkOperands kinds op name (Fault.unlined ∘ report) position pairs =
      (checkOperands kinds op name report position pairs).mapError Fault.unlined := by
  induction pairs generalizing position with
  | nil => rfl
  | cons pair rest ih =>
    rw [checkOperands, checkOperands, mapError_bind, checkOperand_unlined, ih]

theorem callKind_unlined (command : Command) :
    callKind catalog kinds command.unlined =
      (callKind catalog kinds command).mapError Fault.unlined := by
  unfold callKind
  rw [Command.args_unlined]
  split
  · rfl
  · split
    · rfl
    · split
      · rfl
      · rw [mapError_bind, ← checkOperands_unlined]
        rfl

theorem commandKind_unlined (command : Command) :
    commandKind catalog kinds command.unlined =
      (commandKind catalog kinds command).mapError Fault.unlined := by
  unfold commandKind
  rw [Command.role?_unlined]
  split
  · rfl
  · rfl
  · rfl
  · rfl
  · exact callKind_unlined command

theorem commandKinds_unlined (commands : List Command) :
    commandKinds catalog kinds (commands.map Command.unlined) =
      (commandKinds catalog kinds commands).mapError Fault.unlined := by
  induction commands generalizing kinds with
  | nil => rfl
  | cons command rest ih =>
    rw [List.map_cons, commandKinds, commandKinds, mapError_bind, commandKind_unlined]
    simp only [ih]

theorem checkCalls_unlined (commands : List Command) :
    checkCalls catalog (commands.map Command.unlined) =
      (checkCalls catalog commands).mapError Fault.unlined := by
  rw [checkCalls, checkCalls, mapError_bind, commandKinds_unlined]
  rfl

end Calls

/-! ## The whole check -/

/-- Diagnostics of one cause and position that point into two lists are one diagnostic, on the lines
that each of the lists has. -/
theorem PointsInto.alike {commands others : List Command} {d d' : Diagnostic}
    (h : PointsInto commands d) (h' : PointsInto others d') (cause : d'.cause = d.cause)
    (index : d'.index = d.index) : Alike commands others (.diagnostic d) (.diagnostic d') := by
  cases h with
  | whole =>
    cases h' with
    | whole =>
      cases cause
      exact .whole _
    | command => cases index
  | command _ found =>
    cases h' with
    | whole => cases index
    | command _ found' =>
      cases cause
      cases index
      exact .command _ found found'

section Check

variable {catalog : Catalog} {commands others : List Command} {fault : Fault}

/-- Each rule is kept or broken without the lines as with them. -/
theorem Rule.check_unlined (rule : Rule) : rule.check catalog (commands.map Command.unlined) =
    (rule.check catalog commands).mapError Fault.unlined := by
  cases rule with
  | size => exact checkSize_unlined commands
  | oneGround => exact checkOneGround_unlined commands
  | knownRoles => exact checkKnownRoles_unlined commands
  | order => exact checkOrder_unlined commands
  | hasCall => exact checkHasCall_unlined commands
  | hasDeclaration => exact checkHasDeclaration_unlined commands
  | twoRoles => exact checkTwoRoles_unlined commands
  | groundElements => exact checkGroundElements_unlined commands
  | declaredElements => exact checkDeclaredElements_unlined commands
  | calls => exact checkCalls_unlined commands

/-- Taking the lines away before the check or after it gives the same outcome. -/
theorem check_unlined (catalog : Catalog) (commands : List Command) :
    check catalog (commands.map Command.unlined) =
      (check catalog commands).mapError Fault.unlined := by
  unfold check
  induction Rule.all with
  | nil => rfl
  | cons rule rest ih => rw [checkRules, checkRules, mapError_bind, Rule.check_unlined, ih]

/-- Without lines, lists of the same commands have the same outcome. -/
theorem check_of_same (catalog : Catalog)
    (same : List.Forall₂ (fun command other => command.same other = true) commands others) :
    (check catalog others).mapError Fault.unlined =
      (check catalog commands).mapError Fault.unlined := by
  rw [← check_unlined, map_unlined_of_same same, check_unlined]

/-- Lists of the same commands pass the check together. -/
theorem check_eq_ok_of_same (passes : check catalog commands = .ok ())
    (same : List.Forall₂ (fun command other => command.same other = true) commands others) :
    check catalog others = .ok () := by
  have bare := check_of_same catalog same
  rw [passes] at bare
  exact mapError_eq_ok_iff.mp bare

/-- Lists of the same commands are refused alike. -/
theorem check_error_alike (refused : check catalog commands = .error fault)
    (same : List.Forall₂ (fun command other => command.same other = true) commands others) :
    ∃ fault', check catalog others = .error fault' ∧ Alike commands others fault fault' := by
  have bare := check_of_same catalog same
  rw [refused] at bare
  obtain ⟨fault', refused', unlined⟩ := mapError_eq_error_iff.mp bare
  refine ⟨fault', refused', ?_⟩
  rcases Fault.eq_or_diagnostics_of_unlined unlined with
    ⟨plain, rfl⟩ | ⟨d, d', rfl, rfl, cause, index⟩
  · exact .fault plain
  · exact (pointsInto_of_check_error refused).alike (pointsInto_of_check_error refused') cause index

end Check

end Validation

end RelCalc
