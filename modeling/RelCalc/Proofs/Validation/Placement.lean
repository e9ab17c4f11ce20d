/-
  `Proofs.Validation.Placement`: where the diagnostics of validation point.

  A diagnostic is about the list of commands as a whole, or about one command, and then
  it has the position of this command and the source line that the command was read
  from.  The positions are computed by ten checks and the lines by the scanner, which
  skips blank lines and comments; they meet here, where each check names a command of
  the list and each command that is read stands on a line of the text with its words.
-/
import RelCalc.Proofs.Evaluation.Lines
import RelCalc.Proofs.Source.LineFormat
import RelCalc.Proofs.Validation.Overlong

set_option autoImplicit false

namespace RelCalc.Validation

open Outcome

/-! ## Diagnostics about commands -/

/-- What can be wrong with a list of commands as a whole. -/
def wholeCauses : List Cause := [.noCommands, .noGround, .noCall, .noDeclaration]

/-- A diagnostic points at a command of the list, or it is about the list as a whole. -/
inductive PointsInto (commands : List Command) : Diagnostic → Prop where
  | whole {cause : Cause} (about : cause ∈ wholeCauses) : PointsInto commands ⟨cause, none, none⟩
  | command {i : Nat} {command : Command} (cause : Cause) (found : commands[i]? = some command) :
      PointsInto commands (blame command i cause)

section PointsInto

variable {catalog : Catalog} {commands : List Command} {d : Diagnostic} {rule : Rule}

theorem getElem?_zero_of_head? {command : Command} (head : commands.head? = some command) :
    commands[0]? = some command := by
  rwa [← List.head?_eq_getElem?]

/-- What breaks a rule is one of the commands, or the list as a whole. -/
theorem Breaks.pointsInto (h : Breaks catalog commands rule d) : PointsInto commands d := by
  cases h with
  | noCommands | noGround | noCall | noDeclaration => exact .whole (by simp [wholeCauses])
  | tooManyCommands _ found => exact .command _ found
  | manyGrounds second => exact .command _ second.found
  | unknownWord first => exact .command _ first.found
  | groundNotFirst head => exact .command _ (getElem?_zero_of_head? head)
  | lateDeclaration _ _ late => exact .command _ late.found
  | groundElement head => exact .command _ (getElem?_zero_of_head? head)
  | declaration _ first => exact .command _ first.found
  | call first => exact .command _ first.found

/-- Whatever the check reports points into the list; an operand of any length may be what is wrong
with it. -/
theorem pointsInto_of_check_error (refused : check catalog commands = .error (.diagnostic d)) :
    PointsInto commands d := by
  obtain ⟨rule, kept, refused⟩ := exists_broken_of_check refused
  by_cases calls : rule = .calls
  · subst calls
    obtain ⟨i, command, kinds, first, statics, rfl, hcall⟩ :=
      exists_firstAt_of_checkCalls (kept .knownRoles (by decide)) refused
    rcases callKind_error_cases statics hcall with ⟨digits, -, other⟩ | ⟨cause, reported, -⟩
    · cases other
    · obtain rfl : d = blame command kinds.length cause := Fault.diagnostic.inj reported
      exact .command cause first.found
  · obtain ⟨d', same, breaks⟩ := reports_of_check_error_of_ne calls kept refused
    obtain rfl : d = d' := Fault.diagnostic.inj same
    exact breaks.pointsInto

/-- The rules about the content of commands. -/
def contentWords : List String :=
  ["universe-element", "set-element", "operation", "arity", "operand"]

/-- What is wrong with the content of a command is reported for this command. -/
theorem PointsInto.exists_index (h : PointsInto commands d) (content : d.rule ∈ contentWords) :
    ∃ i, d.index = some i := by
  cases h with
  | whole about =>
    simp only [wholeCauses, List.mem_cons, List.not_mem_nil, or_false] at about
    rcases about with rfl | rfl | rfl | rfl <;> exact absurd content (by decide)
  | command => exact ⟨_, rfl⟩

end PointsInto

/-! ## Diagnostics about texts -/

section Texts

open Source

/-- A command that is read, on the physical line of the text that has its words. -/
structure StandsOn (text : String) (command : Command) (n : Int) : Prop where
  recorded : command.line = some n
  positive : 1 ≤ n
  /-- Lines are counted from one. -/
  spelled : ∃ line, (physicalLines text.toList)[n.toNat - 1]? = some line ∧
    wordsOf (codePart line) = (command.word :: command.args).map String.toList

theorem exists_standsOn {text : String} {commands : List Command} {command : Command}
    (found : read text = .ok commands) (member : command ∈ commands) :
    ∃ n, StandsOn text command n := by
  obtain ⟨n, line, place, recorded, words⟩ := exists_line_of_read found member
  exact ⟨(n + 1 : Nat), recorded, by omega, line, by simpa using place, words⟩

/-- **Diagnostics of validation point at the right line.**  A text whose commands are read is
refused with diagnostics that make the commands invalid.  They have a line exactly when they have an
index; the index is the position of one of the commands, and the line is the physical line of the
text on which this command stands.  What is wrong with the content of a command has an index. -/
theorem load_error_standsOn {text : String} {commands : List Command} {d : Diagnostic}
    (found : read text = .ok commands) (refused : Program.load text = .error (.diagnostic d)) :
    .invalid ∈ d.cause.category.ancestors ∧
    (d.line = none ↔ d.index = none) ∧
    (∀ i, d.index = some i → 1 ≤ i ∧ i ≤ commands.length ∧ ∃ command n,
      commands[i.toNat - 1]? = some command ∧ StandsOn text command n ∧ d.line = some n) ∧
    (d.rule ∈ contentWords → ∃ i, d.index = some i) := by
  have checked := (Program.load_eq_error_iff found).mp refused
  have points := pointsInto_of_check_error checked
  have invalid : .invalid ∈ d.cause.category.ancestors := by
    rcases check_error_cases checked with ⟨digits, -, other⟩ | ⟨d', same, invalid⟩
    · cases other
    · rwa [Fault.diagnostic.inj same]
  refine ⟨invalid, ?_, ?_, points.exists_index⟩
  · cases points with
    | whole => exact Iff.rfl
    | command cause place =>
      obtain ⟨n, stands⟩ := exists_standsOn found (List.mem_of_getElem? place)
      simp [blame, stands.recorded]
  · intro i index
    cases points with
    | whole => cases index
    | @command k command cause place =>
      obtain rfl : ((k + 1 : Nat) : Int) = i := Option.some.inj index
      have bound := (List.getElem?_eq_some_iff.mp place).1
      obtain ⟨n, stands⟩ := exists_standsOn found (List.mem_of_getElem? place)
      exact ⟨by omega, by omega, command, n, by simpa using place, stands, stands.recorded⟩

/-- A text in which comments, blank lines and both ways to end a line come before half a pair. -/
def halfPairText : String :=
  "# pairs\r\n\r\nU a b # ground\r\n \t\r\n\nS a\nR a b\ta # half a pair\nC card 2"

/-- The third command is reported, on line 7. -/
theorem load_error_standsOn_halfPairText :
    read halfPairText = .ok [⟨"U", ["a", "b"], some 3⟩, ⟨"S", ["a"], some 6⟩,
      ⟨"R", ["a", "b", "a"], some 7⟩, ⟨"C", ["card", "2"], some 8⟩] ∧
    Program.load halfPairText = .error (.diagnostic ⟨.halfPair 3, some 7, some 3⟩) ∧
      StandsOn halfPairText ⟨"R", ["a", "b", "a"], some 7⟩ 7 := by
  have found : read halfPairText = .ok [⟨"U", ["a", "b"], some 3⟩, ⟨"S", ["a"], some 6⟩,
      ⟨"R", ["a", "b", "a"], some 7⟩, ⟨"C", ["card", "2"], some 8⟩] := by decide +kernel
  have refused : Program.load halfPairText =
      .error (.diagnostic ⟨.halfPair 3, some 7, some 3⟩) := by decide +kernel
  obtain ⟨-, -, points, -⟩ := load_error_standsOn found refused
  obtain ⟨-, -, command, n, place, stands, line⟩ := points 3 rfl
  cases place
  cases line
  exact ⟨found, refused, stands⟩

end Texts

end RelCalc.Validation
