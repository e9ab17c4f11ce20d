/-
  `Proofs.CommandLine.Totality`: how a run and a call can end.

  A text cannot be split into words, its commands break a rule, or they are evaluated
  and listed: the evaluation of accepted commands never fails.  In the first two cases
  there is a diagnostic, with one exception.  A numeral of more than 4300 characters,
  where it is the first operand that does not pass, ends the run with a fault that no
  call reports.  So runs and calls conclude on all other texts, and on these only.
-/
import RelCalc.Proofs.CommandLine.Call
import RelCalc.Proofs.Validation.Overlong

set_option autoImplicit false

namespace RelCalc

open Outcome Validation

/-- A diagnostic refuses a text: it cannot be split into words, or its commands break a rule. -/
def Diagnostic.Refuses (d : Diagnostic) : Prop :=
  d.cause.category = .malformed ∨ .invalid ∈ d.cause.category.ancestors

/-- A run concludes: it gives lines or a diagnostic that refuses the text. -/
def RunConcludes (text : String) : Prop :=
  (∃ lines, runText text = .ok lines) ∨
    ∃ d : Diagnostic, d.Refuses ∧ runText text = .error (.diagnostic d)

/-- The commands of a text overrun: the first operand that does not pass is a numeral of so many
digits, more than can be read. -/
def TextOverruns (text : String) (digits : Nat) : Prop :=
  ∃ commands, Source.read text = .ok commands ∧ Overruns Catalog.standard commands digits

section Run

variable {text : String} {fault : Fault} {commands : List Command} {digits : Nat}

/-- A text that cannot be split into words is refused. -/
theorem refuses_of_read_error (failed : Source.read text = .error fault) :
    ∃ d : Diagnostic, fault = .diagnostic d ∧ d.Refuses := by
  rcases Source.clean_or_misplaced (Source.physicalLines text.toList) with
    clean | ⟨c, n, column, first⟩
  · rw [Source.read_of_clean clean] at failed
    cases failed
  · rw [Source.read_of_misplaced first] at failed
    exact ⟨_, (Except.error.inj failed).symm, .inl rfl⟩

/-- A run ends in one of three ways. -/
theorem runText_cases (text : String) :
    (∃ lines, runText text = .ok lines) ∨
      (∃ d : Diagnostic, d.Refuses ∧ runText text = .error (.diagnostic d)) ∨
        ∃ digits, TextOverruns text digits ∧ runText text = .error (.tooManyDigits digits) := by
  cases found : Source.read text with
  | error fault =>
    obtain ⟨d, rfl, refuses⟩ := refuses_of_read_error found
    refine .inr (.inl ⟨d, refuses, ?_⟩)
    simp only [runText, Program.load, found, bind, Except.bind]
  | ok commands =>
    cases checked : check Catalog.standard commands with
    | error fault =>
      have failed := runText_of_check_error found checked
      rcases check_error_cases checked with ⟨digits, overruns, rfl⟩ | ⟨d, rfl, invalid⟩
      · exact .inr (.inr ⟨digits, ⟨commands, found, overruns⟩, failed⟩)
      · exact .inr (.inl ⟨d, .inr invalid, failed⟩)
    | ok _ =>
      obtain ⟨slots, kinds, values, h⟩ :=
        Program.exists_accepted (validate_eq_none_iff.mpr checked)
      exact .inl ⟨_, runText_of_read found h⟩

/-- The run of a text whose commands overrun ends with a fault that is no diagnostic. -/
theorem runText_of_textOverruns (h : TextOverruns text digits) :
    runText text = .error (.tooManyDigits digits) := by
  obtain ⟨commands, found, overruns⟩ := h
  exact runText_of_check_error found (check_of_overruns overruns)

/-- A run concludes unless the commands of the text overrun. -/
theorem runConcludes_iff : RunConcludes text ↔ ∀ digits, ¬ TextOverruns text digits := by
  constructor
  · intro concludes digits overruns
    have failed := runText_of_textOverruns overruns
    rcases concludes with ⟨lines, ran⟩ | ⟨d, -, refused⟩
    · cases ran.symm.trans failed
    · cases refused.symm.trans failed
  · intro fits
    rcases runText_cases text with ran | refused | ⟨digits, overruns, -⟩
    · exact .inl ran
    · exact .inr refused
    · exact absurd overruns (fits digits)

end Run

/-! ## An overlong numeral -/

section Numeral

variable {token : String}

/-- Commands that ask for the size of the set on the line that a token names. -/
def cardCommands (token : String) : List Command :=
  [⟨"U", ["a"], some 1⟩, ⟨"S", ["a"], some 2⟩, ⟨"C", ["card", token], some 3⟩]

/-- The text of these commands. -/
def cardText (token : String) : String := "U a\nS a\nC card " ++ token

/-- Any numeral is read as an operand. -/
theorem read_cardText {n : Nat} (numeral : Text.Denotes token n) :
    Source.read (cardText token) = .ok (cardCommands token) := by
  have word : Source.IsWord "a" :=
    Source.isWord_of_isAlphanum (by decide) (List.all_eq_true.mp (by decide))
  have words : ∀ command ∈ cardCommands token,
      ∀ word ∈ command.word :: command.args, Source.IsWord word := by
    simp only [cardCommands, List.forall_mem_cons, List.not_mem_nil, false_implies, implies_true,
      and_true]
    exact ⟨⟨isWord_letter .ground, word⟩, ⟨isWord_letter .set, word⟩, isWord_letter .call,
      isWord_of_mem_standard (by decide), isWord_of_denotes numeral⟩
  have printed : cardText token = Source.print (cardCommands token) := by
    simp only [Source.print, Text.unlines, cardCommands, Command.text, Text.unwords, List.map_cons,
      List.map_nil, Text.joinWith, ← String.append_assoc]
    rfl
  rw [printed]
  exact Source.read_print words

/-- All rules before that of calls are kept. -/
theorem keeps_cardCommands (token : String) :
    ∀ rule ∈ Rule.calls.earlier, Keeps Catalog.standard (cardCommands token) rule := by
  intro rule before
  refine keeps_of_check_of_ne ?_ ?_
  · rintro rfl
    exact absurd before (by decide)
  · cases rule with
    | calls => exact absurd before (by decide)
    | _ => rfl

/-- If the numeral is overlong, the commands overrun. -/
theorem textOverruns_cardText (long : Overlong token) :
    TextOverruns (cardText token) token.length := by
  obtain ⟨n, numeral⟩ := long.1
  have size : (Catalog.standard.find? "card").map Operation.operands = some [.set] := by
    decide +kernel
  obtain ⟨op, found, operands⟩ := Option.map_eq_some_iff.mp size
  obtain ⟨known, named⟩ := Catalog.mem_and_name_of_find? found
  have first : FirstAt (fun j other => other.role? = some .call ∧
      ¬ CallPasses Catalog.standard ((cardCommands token).take j) other) (cardCommands token) 2
        ⟨"C", ["card", token], some 3⟩ := by
    refine ⟨rfl, ⟨rfl, fun passes => ?_⟩, fun j other before found refused => ?_⟩
    · exact absurd (passes.2 token List.mem_cons_self) (Nat.not_le.mpr long.2)
    · -- The two commands before the call are declarations.
      have role := refused.1
      interval_cases j
      · cases found
        cases role
      · cases found
        cases role
  have arity : [token].length = op.arity := by rw [Operation.arity, operands]; rfl
  have operand : FirstAt (fun j (pair : String × Kind) =>
      ¬ OperandPasses Catalog.standard ((cardCommands token).take 2) op (j + 1) pair.1 pair.2)
        ([token].zip op.operands) 0 (token, .set) := by
    rw [operands]
    exact .head fun passes => absurd passes.2 (Nat.not_le.mpr long.2)
  exact ⟨cardCommands token, read_cardText numeral, .call (keeps_cardCommands token) first
    (.operand rfl known named arity operand long)⟩

/-- The numeral of so many ones. -/
def ones (count : Nat) : String := String.ofList (List.replicate count '1')

theorem length_ones (count : Nat) : (ones count).length = count := by
  rw [ones, String.length_ofList, List.length_replicate]

/-- More than 4300 ones are overlong. -/
theorem overlong_ones {count : Nat} (many : 4300 < count) : Overlong (ones count) := by
  refine ⟨⟨_, ?_, ?_, rfl⟩, by rwa [length_ones]⟩
  · rw [ones, String.toList_ofList]
    intro empty
    have none : count = 0 := by simpa using empty
    omega
  · intro c member
    rw [ones, String.toList_ofList] at member
    rw [List.eq_of_mem_replicate member]
    rfl

end Numeral

/-! ## Calls -/

namespace CommandLine

variable {disk : Disk} {name content token : String} {digits : Nat}

/-- A call concludes: it ends normally and prints one line for each command, or it reports a
diagnostic that refuses the text, for the input file and as its only error, prints nothing and ends
with status 1. -/
def CallConcludes (disk : Disk) (name content : String) : Prop :=
  (∃ commands lines, Source.read (fileText content) = .ok commands ∧
    lines.length = commands.length ∧ (∀ line ∈ lines, '\n' ∉ line.toList) ∧
      call ["-i", name] disk =
        ⟨.normal, printLines lines, [.inputFile name, .finished lines.length], disk⟩) ∨
    ∃ d : Diagnostic, d.Refuses ∧ call ["-i", name] disk =
      ⟨.status 1, "", [.inputFile name, .failed (d.report name)], disk⟩

/-- A call concludes when the run of the text in the file does. -/
theorem callConcludes_of_runConcludes (named : IsName name) (readable : Readable disk name content)
    (concludes : RunConcludes (fileText content)) : CallConcludes disk name content := by
  have asks := parseArguments_input named
  rcases concludes with ⟨lines, ran⟩ | ⟨d, refuses, failed⟩
  · obtain ⟨done, runs, rfl⟩ := Program.runText_eq_ok_iff.mp ran
    obtain ⟨commands, slots, kinds, values, found, -⟩ := runs.exists_accepted
    obtain ⟨values, -, spelled⟩ := runs.exists_values
    refine .inl ⟨commands, done.listing, found, runs.length_listing found, ?_,
      call_prints asks readable ran⟩
    exact forall_mem_of_forall₂ spelled fun line value spells => spells.newline_not_mem
  · exact .inr ⟨d, refuses, call_of_diagnostic asks readable failed⟩

/-- A call on a file whose commands overrun ends with a fault that is not reported. -/
theorem call_of_textOverruns (named : IsName name) (readable : Readable disk name content)
    (overruns : TextOverruns (fileText content) digits) :
    call ["-i", name] disk = ⟨.fault (.tooManyDigits digits), "", [.inputFile name], disk⟩ :=
  call_of_fault (parseArguments_input named) readable (runText_of_textOverruns overruns) rfl

/-- A call concludes unless the commands in the file overrun. -/
theorem callConcludes_iff (named : IsName name) (readable : Readable disk name content) :
    CallConcludes disk name content ↔ ∀ digits, ¬ TextOverruns (fileText content) digits := by
  constructor
  · intro concludes digits overruns
    have failed := call_of_textOverruns named readable overruns
    rcases concludes with ⟨commands, lines, -, -, -, ended⟩ | ⟨d, -, ended⟩
    · cases ended.symm.trans failed
    · cases ended.symm.trans failed
  · exact fun fits => callConcludes_of_runConcludes named readable (runConcludes_iff.mpr fits)

/-- Any numeral leaves the text as the file has it. -/
theorem fileText_cardText {n : Nat} (numeral : Text.Denotes token n) :
    fileText (cardText token) = cardText token := by
  have absent : '\r' ∉ (cardText token).toList := by
    rw [cardText, String.toList_append, List.mem_append, not_or]
    refine ⟨by decide, fun member => ?_⟩
    exact absurd (numeral.2.1 '\r' member) (by decide)
  rw [fileText, Text.unifyNewlines_of_not_mem absent, String.ofList_toList]

/-- A single file can be read. -/
theorem readable_single (content : String) :
    Readable (.ofFiles [("p.txt", content)]) "p.txt" content := by
  have way : Disk.placesOn "p.txt" = [⟨false, ["p.txt"]⟩] := by decide +kernel
  have placed : (Disk.mk [] []).place "p.txt" = .ok ⟨false, ["p.txt"]⟩ := by decide +kernel
  exact ⟨by decide, Disk.read_ofFiles_single way placed⟩

/-- **A run and a call conclude unless an overlong numeral ends them.**  On a text whose commands
overrun, and on no other, a run gives neither lines nor a diagnostic that refuses the text, but a
fault that tells the number of digits.  With such a text in its input file, of which the name is
taken for a name, and with no other, a call neither prints a line for each command nor reports a
diagnostic, but ends with this fault. -/
theorem concludes_iff_not_overruns (text : String) (named : IsName name)
    (readable : Readable disk name content) :
    (RunConcludes text ↔ ∀ digits, ¬ TextOverruns text digits) ∧
      (CallConcludes disk name content ↔ ∀ digits, ¬ TextOverruns (fileText content) digits) ∧
      (∀ digits, TextOverruns text digits → runText text = .error (.tooManyDigits digits)) ∧
      ∀ digits, TextOverruns (fileText content) digits → call ["-i", name] disk =
        ⟨.fault (.tooManyDigits digits), "", [.inputFile name], disk⟩ := by
  refine ⟨runConcludes_iff, callConcludes_iff named readable, ?_, ?_⟩
  · intro digits overruns
    exact runText_of_textOverruns overruns
  · intro digits overruns
    exact call_of_textOverruns named readable overruns

/-- A run and a call conclude with the numeral 2, and not with 4301 ones. -/
theorem concludes_iff_not_overruns_cardText :
    (RunConcludes (cardText "2") ∧ (∀ digits, ¬ TextOverruns (cardText "2") digits) ∧
      CallConcludes (.ofFiles [("p.txt", cardText "2")]) "p.txt" (cardText "2")) ∧
    TextOverruns (cardText (ones 4301)) 4301 ∧
      runText (cardText (ones 4301)) = .error (.tooManyDigits 4301) := by
  have ran : runText (cardText "2") = .ok ["U a", "S a", "1"] := by decide +kernel
  have concludes : RunConcludes (cardText "2") := .inl ⟨_, ran⟩
  have small : Text.Denotes "2" 2 := Text.denotes_toString 2
  obtain ⟨run, input, -, -⟩ :=
    concludes_iff_not_overruns (cardText "2") (by decide) (readable_single _)
  have fits := run.mp concludes
  rw [fileText_cardText small] at input
  have overruns := textOverruns_cardText (overlong_ones (Nat.lt_succ_self 4300))
  rw [length_ones] at overruns
  obtain ⟨-, -, ends, -⟩ := concludes_iff_not_overruns (cardText (ones 4301)) (by decide)
    (readable_single (cardText (ones 4301)))
  exact ⟨⟨concludes, fits, input.mpr fits⟩, overruns, ends _ overruns⟩

/-- A run and a call on the text of an overlong numeral end with the fault, and do not conclude. -/
theorem not_concludes_cardText (long : Overlong token) :
    runText (cardText token) = .error (.tooManyDigits token.length) ∧
      ¬ RunConcludes (cardText token) ∧
      call ["-i", "p.txt"] (.ofFiles [("p.txt", cardText token)]) =
        ⟨.fault (.tooManyDigits token.length), "", [.inputFile "p.txt"],
          .ofFiles [("p.txt", cardText token)]⟩ ∧
      ¬ CallConcludes (.ofFiles [("p.txt", cardText token)]) "p.txt" (cardText token) := by
  have named : IsName "p.txt" := by decide
  have overruns := textOverruns_cardText long
  have overruns' : TextOverruns (fileText (cardText token)) token.length := by
    obtain ⟨n, numeral⟩ := long.1
    rwa [fileText_cardText numeral]
  refine ⟨runText_of_textOverruns overruns, fun concludes => ?_,
    call_of_textOverruns named (readable_single _) overruns', fun concludes => ?_⟩
  · exact runConcludes_iff.mp concludes _ overruns
  · exact (callConcludes_iff named (readable_single _)).mp concludes _ overruns'

/-- A run and a call do not conclude on the text that asks for the size of the set on the line
whose number is 4301 ones: the run ends with a fault, and the call does not report it. -/
theorem not_concludes_ones :
    runText (cardText (ones 4301)) = .error (.tooManyDigits 4301) ∧
      ¬ RunConcludes (cardText (ones 4301)) ∧
      call ["-i", "p.txt"] (.ofFiles [("p.txt", cardText (ones 4301))]) =
        ⟨.fault (.tooManyDigits 4301), "", [.inputFile "p.txt"],
          .ofFiles [("p.txt", cardText (ones 4301))]⟩ ∧
      ¬ CallConcludes (.ofFiles [("p.txt", cardText (ones 4301))]) "p.txt"
        (cardText (ones 4301)) := by
  have ended := not_concludes_cardText (overlong_ones (Nat.lt_succ_self 4300))
  rwa [length_ones] at ended

end CommandLine

end RelCalc
