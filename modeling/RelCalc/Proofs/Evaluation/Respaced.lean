/-
  `Proofs.Evaluation.Respaced`: how a text is laid out does not matter.

  Commands carry the lines they were read from, and so do slots, calls and diagnostics.
  Nothing is decided by them.  So two texts with the same commands, on whatever lines,
  are run to the same listing, or refused alike, each on its own lines; and blank lines
  and comments can be put into a text without changing its listing.
-/
import RelCalc.Proofs.Evaluation.Reload
import RelCalc.Proofs.Source.Spacing
import RelCalc.Proofs.Validation.Unlined

set_option autoImplicit false

namespace RelCalc

open Outcome Validation

/-! ## Accepted commands -/

section Accepted

open Program

variable {commands others : List Command} {slots slots' : List Slot} {kinds kinds' : List Kind}
  {values values' : List Value} {catalog : Catalog}

/-- The same commands make slots of the same contents. -/
theorem contents_of_same
    (same : List.Forall₂ (fun command other => command.same other = true) commands others)
    (made : slotsOf commands = .ok slots) (made' : slotsOf others = .ok slots') :
    List.Forall₂ (fun slot slot' => slot'.content = slot.content) slots slots' := by
  replace made := forall₂_slotsOf made
  replace made' := forall₂_slotsOf made'
  induction same generalizing slots slots' with
  | nil =>
    cases made
    cases made'
    exact .nil
  | @cons command other rest rest' first _ ih =>
    obtain ⟨slot, later, ⟨_, hslot⟩, hlater, rfl⟩ := List.forall₂_cons_left_iff.mp made
    obtain ⟨slot', later', ⟨_, hslot'⟩, hlater', rfl⟩ := List.forall₂_cons_left_iff.mp made'
    refine .cons ?_ (ih hlater hlater')
    obtain ⟨content, hcontent, rfl⟩ := slot_eq_ok_iff.mp hslot
    obtain ⟨content', hcontent', rfl⟩ := slot_eq_ok_iff.mp hslot'
    have equal : other.content = command.content := by
      show other.unlined.content = command.unlined.content
      rw [Command.same_iff_unlined.mp first]
    exact Except.ok.inj (hcontent'.symm.trans (equal.trans hcontent))

/-- The equation of a line is about its words. -/
theorem Equation.of_same {values : List Value} {command other : Command} {value : Value}
    (same : command.same other = true) (h : Equation catalog values command value) :
    Equation catalog values other value := by
  obtain ⟨word, args, line⟩ := command
  obtain ⟨word', args', line'⟩ := other
  obtain ⟨rfl, rfl⟩ : word = word' ∧ args = args' := by simpa [Command.same] using same
  cases h with
  | ground role => exact .ground role
  | set role => exact .set role
  | relation pairs role paired => exact .relation pairs role paired
  | call name tokens op first operands _ role args found ground referents applied =>
    exact .call name tokens op first operands value role args found ground referents applied

theorem Solves.of_same (h : Solves catalog commands values)
    (same : List.Forall₂ (fun command other => command.same other = true) commands others) :
    Solves catalog others values := by
  refine ⟨h.length_eq.trans same.length_eq, fun i other value found held => ?_⟩
  obtain ⟨command, hcommand, both⟩ := exists_left_of_forall₂ same found
  exact (h.line i command value hcommand held).of_same both

/-- The same commands are accepted together, and leave the same listing. -/
theorem Program.Accepted.listing_of_same (h : Accepted catalog commands slots kinds values)
    (h' : Accepted catalog others slots' kinds' values')
    (same : List.Forall₂ (fun command other => command.same other = true) commands others) :
    (settleAll slots' values').map Slot.text = (settleAll slots values).map Slot.text := by
  obtain rfl : values = values' :=
    h'.settles.evaluates.eq_of_solves (h.settles.evaluates.solves.of_same same)
  exact map_text_settleAll (contents_of_same same h.slots_eq h'.slots_eq) values

end Accepted

/-! ## Texts -/

section Texts

open Program Source

variable {text other : String} {commands others : List Command}

/-- Texts with the same commands are run to the same listing, or refused alike. -/
theorem runText_of_same (found : read text = .ok commands) (found' : read other = .ok others)
    (same : List.Forall₂ (fun command other => command.same other = true) commands others) :
    (∃ lines, runText text = .ok lines ∧ runText other = .ok lines) ∨
      ∃ fault fault', runText text = .error fault ∧ runText other = .error fault' ∧
        fault'.message = fault.message ∧ Alike commands others fault fault' := by
  cases checked : check Catalog.standard commands with
  | ok _ =>
    have checked' := check_eq_ok_of_same checked same
    obtain ⟨slots, kinds, values, h⟩ :=
      exists_accepted (validate_eq_none_iff.mpr checked)
    obtain ⟨slots', kinds', values', h'⟩ :=
      exists_accepted (validate_eq_none_iff.mpr checked')
    refine .inl ⟨_, runText_of_read found h, ?_⟩
    rw [runText_of_read found' h', h.listing_of_same h' same]
  | error fault =>
    obtain ⟨fault', checked', alike⟩ := check_error_alike checked same
    exact .inr ⟨fault, fault', runText_of_check_error found checked,
      runText_of_check_error found' checked', alike.message_eq, alike⟩

/-- **How a text is laid out does not matter.**  Two texts whose commands are pairwise the same, on
whatever lines, are run to the same listing, or refused alike: with one message, and with
diagnostics of one cause about the command in one place, on the line that each text has it on.  A
text that is read still is when a blank line, a line of a comment, or a comment at the end of a line
is put into it, as the same commands and with the same listing. -/
theorem runText_respaced :
    (∀ (text other : String) (commands others : List Command), read text = .ok commands →
      read other = .ok others →
      List.Forall₂ (fun command other => command.same other = true) commands others →
        (∃ lines, runText text = .ok lines ∧ runText other = .ok lines) ∨
          ∃ fault fault', runText text = .error fault ∧ runText other = .error fault' ∧
            fault'.message = fault.message ∧ Alike commands others fault fault') ∧
    ∀ (text edited : String) (commands : List Command), read text = .ok commands →
      Respaced text edited → (∃ others, read edited = .ok others ∧
        List.Forall₂ (fun command other => command.same other = true) commands others) ∧
          ∀ lines, runText edited = .ok lines ↔ runText text = .ok lines := by
  refine ⟨fun text other commands others => runText_of_same, ?_⟩
  intro text edited commands found edit
  obtain ⟨others, found', same⟩ := read_of_respaced edit found
  refine ⟨⟨others, found', same⟩, fun lines => ?_⟩
  rcases runText_of_same found found' same with ⟨_, ran, ran'⟩ | ⟨_, _, failed, failed', -⟩
  · rw [ran, ran']
  · rw [failed, failed']
    refine ⟨fun ran => ?_, fun ran => ?_⟩ <;> cases ran

/-- Commands on lines in a row, one of which names an element that is not in the ground set. -/
def foreignCommands (line : Int) : List Command :=
  [⟨"U", ["a", "b"], some line⟩, ⟨"S", ["c"], some (line + 1)⟩,
    ⟨"C", ["card", "2"], some (line + 2)⟩]

/-- A text of these commands. -/
def foreignText : String := "U a b\nS c\nC card 2"

/-- A text of the same commands on other lines. -/
def spacedForeignText : String := "# sets\r\n\nU a\tb\r\n  S c # no element\nC card 2"

/-- A text whose first line ends with a carriage return and a newline. -/
def sizeText : String := "U a b" ++ "\r\n" ++ "S a b\nC card 2"

/-- The text with a comment at the end of its first line. -/
def commentedSizeText : String := "U a b" ++ " #" ++ " two" ++ "\r\n" ++ "S a b\nC card 2"

/-- One diagnostic, on the second line of one text and on the fourth of the other; and a comment
that does not change a listing. -/
theorem runText_respaced_samples :
    read foreignText = .ok (foreignCommands 1) ∧ read spacedForeignText = .ok (foreignCommands 3) ∧
      List.Forall₂ (fun command other => command.same other = true)
        (foreignCommands 1) (foreignCommands 3) ∧
      Alike (foreignCommands 1) (foreignCommands 3)
        (.diagnostic ⟨.foreignElement "c", some 2, some 2⟩)
        (.diagnostic ⟨.foreignElement "c", some 4, some 2⟩) ∧
    (∃ commands, read sizeText = .ok commands) ∧ Respaced sizeText commentedSizeText ∧
      runText commentedSizeText = .ok ["U a b", "S a b", "2"] := by
  have found : read foreignText = .ok (foreignCommands 1) := by decide +kernel
  have found' : read spacedForeignText = .ok (foreignCommands 3) := by decide +kernel
  have same : List.Forall₂ (fun command other => command.same other = true)
      (foreignCommands 1) (foreignCommands 3) := by simp [foreignCommands, Command.same]
  have refused : runText foreignText =
      .error (.diagnostic ⟨.foreignElement "c", some 2, some 2⟩) := by decide +kernel
  have refused' : runText spacedForeignText =
      .error (.diagnostic ⟨.foreignElement "c", some 4, some 2⟩) := by decide +kernel
  have alike : Alike (foreignCommands 1) (foreignCommands 3)
      (.diagnostic ⟨.foreignElement "c", some 2, some 2⟩)
      (.diagnostic ⟨.foreignElement "c", some 4, some 2⟩) := by
    rcases runText_respaced.1 _ _ _ _ found found' same with
      ⟨lines, ran, -⟩ | ⟨fault, fault', failed, failed', -, alike⟩
    · cases refused.symm.trans ran
    · cases refused.symm.trans failed
      cases refused'.symm.trans failed'
      exact alike
  have size : read sizeText = .ok [⟨"U", ["a", "b"], some 1⟩, ⟨"S", ["a", "b"], some 2⟩,
      ⟨"C", ["card", "2"], some 3⟩] := by decide +kernel
  have edit : Respaced sizeText commentedSizeText := .comment (by decide) (.inl rfl)
  obtain ⟨-, listing⟩ := runText_respaced.2 _ _ _ size edit
  exact ⟨found, found', same, alike, ⟨_, size⟩, edit, (listing _).mpr (by decide +kernel)⟩

end Texts

end RelCalc
