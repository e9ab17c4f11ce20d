/-
  `Proofs.CommandLine.Call`: a call of the command line against the run of a text.

  A call that names a readable file evaluates its text, with line ends made one, as a
  run does; everything it reports on the way is fine-grained and left out.  So its
  outcome is known from the run: the lines are printed or written, a diagnostic is the
  only failure that is reported, and any other fault escapes.  Both ways out of a call
  deliver the same text, since a listing is never empty.  All this is about files of
  which the name is taken for a name: the command line does not open a file by a name
  that looks like an option.
-/
import RelCalc.CommandLine.Call
import RelCalc.Proofs.CommandLine.Disk
import RelCalc.Proofs.Evaluation.Listing
import RelCalc.Proofs.Source.LineEnds

set_option autoImplicit false

namespace RelCalc.CommandLine

/-! ## Arguments -/

/-- The command line takes an argument for a file name where it asks for one.  It takes most
arguments that start with a dash for options instead, known or not; a single dash, negative numbers
and what has a blank in it can be names. -/
def IsName (argument : String) : Prop := classify argument.toList = .value

instance (argument : String) : Decidable (IsName argument) :=
  inferInstanceAs (Decidable (classify argument.toList = .value))

section Arguments

variable {name output : String}

theorem isAmbiguous_of_isName (h : IsName name) : isAmbiguous name = false := by
  rw [isAmbiguous, h]
  rfl

/-- Arguments none of which could be any long form are read one after the other. -/
theorem parseArguments_of_clear {arguments : List String}
    (clear : ∀ argument ∈ arguments, isAmbiguous argument = false) :
    parseArguments arguments = readArguments .blank arguments := by
  rw [parseArguments, if_neg]
  rw [Bool.not_eq_true, List.any_eq_false]
  intro argument member
  rw [clear argument (List.takeWhile_subset _ member)]
  exact Bool.false_ne_true

/-- An option that asks for a file name takes the next argument. -/
theorem readArguments_of_awaits {draft next : Draft} {option : String} {later : List String}
    (switch : Switch) (asks : readArgument draft option = .awaits switch next)
    (noHelp : draft.help = false) (named : IsName name) :
    readArguments draft (option :: name :: later) =
      readArguments (next.setName switch (.path name)) later := by
  rw [readArguments, noHelp, asks]
  simp only [Bool.false_eq_true, if_false]
  exact if_pos named

/-- An input file is asked for. -/
theorem parseArguments_input (named : IsName name) :
    parseArguments ["-i", name] = .run ⟨.path name, none, false⟩ := by
  have clear : ∀ argument ∈ ["-i", name], isAmbiguous argument = false := by
    simp [isAmbiguous_of_isName named, show isAmbiguous "-i" = false by decide]
  rw [parseArguments_of_clear clear, readArguments_of_awaits .input rfl rfl named]
  rfl

/-- An input file and an output file are asked for. -/
theorem parseArguments_input_output (named : IsName name) (outputNamed : IsName output) :
    parseArguments ["-i", name, "-o", output] = .run ⟨.path name, some (.path output), false⟩ := by
  have clear : ∀ argument ∈ ["-i", name, "-o", output], isAmbiguous argument = false := by
    simp [isAmbiguous_of_isName named, isAmbiguous_of_isName outputNamed,
      show isAmbiguous "-i" = false by decide, show isAmbiguous "-o" = false by decide]
  rw [parseArguments_of_clear clear, readArguments_of_awaits .input rfl rfl named,
    readArguments_of_awaits .output rfl rfl outputNamed]
  rfl

/-- Where the input file should be, the command line refuses what it does not take for a name. -/
theorem parseArguments_input_of_not_isName (unnamed : ¬ IsName name) :
    parseArguments ["-i", name] = .usageError := by
  rw [parseArguments]
  split
  · rfl
  · rw [readArguments, show readArgument .blank "-i" = .awaits .input .blank from rfl]
    exact if_neg unnamed

end Arguments

/-! ## Files -/

/-- A file that can be read. -/
structure Readable (disk : Disk) (name content : String) : Prop where
  solid : '\x00' ∉ name.toList
  found : disk.read name = .ok content

/-- A file that can be written. -/
structure Writable (disk : Disk) (name : String) (location : Location) : Prop where
  solid : '\x00' ∉ name.toList
  placed : disk.place name = .ok location

/-- The text in a file, with line ends made one. -/
def fileText (content : String) : String := String.ofList (Text.unifyNewlines content.toList)

/-! ## Evaluation -/

section Evaluation

variable {text : String} {event : Event}

theorem level_of_mem_lineEvents {before after : Program}
    (member : event ∈ lineEvents before after) :
    event.level = .debug := by
  obtain ⟨entry, -, made⟩ := List.mem_filterMap.mp member
  split at made
  · cases made
    rfl
  · cases made

theorem level_of_mem_evaluateCommands {commands : List Command}
    (member : event ∈ (evaluateCommands commands).1) : event.level = .debug := by
  unfold evaluateCommands at member
  split at member
  · cases member
  · split at member
    · exact level_of_mem_lineEvents member
    · rcases List.mem_append.mp member with line | last
      · exact level_of_mem_lineEvents line
      · obtain rfl := List.mem_singleton.mp last
        rfl

theorem level_of_mem_checkCommands {commands : List Command}
    (member : event ∈ (checkCommands commands).1) : event.level = .debug := by
  have checks : ∀ event ∈ (Validation.consulted Catalog.standard commands
      Validation.Rule.all).map Event.checking, event.level = .debug := by
    intro event member
    obtain ⟨rule, -, rfl⟩ := List.mem_map.mp member
    rfl
  unfold checkCommands at member
  dsimp only at member
  split at member
  · exact checks event member
  · rcases List.mem_append.mp member with check | later
    · exact checks event check
    · rcases List.mem_cons.mp later with rfl | line
      · rfl
      · exact level_of_mem_evaluateCommands line

/-- All that is reported of an evaluation is fine-grained. -/
theorem level_of_mem_evaluateText (member : event ∈ (evaluateText text).1) :
    event.level = .debug := by
  unfold evaluateText at member
  split at member
  · cases member
  · rcases List.mem_cons.mp member with rfl | later
    · rfl
    · exact level_of_mem_checkCommands later

theorem result_evaluateCommands (commands : List Command) : (evaluateCommands commands).2 =
    Program.ofCommands commands >>= fun p => p.evaluateAll Catalog.standard := by
  unfold evaluateCommands
  cases Program.ofCommands commands with
  | error fault => rfl
  | ok program =>
    simp only [bind, Except.bind, Program.evaluateAll]
    rcases program.run Catalog.standard with ⟨ended, none | fault⟩ <;> rfl

theorem result_checkCommands (commands : List Command) : (checkCommands commands).2 =
    Validation.check Catalog.standard commands >>= fun _ => (evaluateCommands commands).2 := by
  unfold checkCommands
  cases Validation.check Catalog.standard commands <;> rfl

theorem result_evaluateText (text : String) : (evaluateText text).2 =
    Program.load text >>= fun p => p.evaluateAll Catalog.standard := by
  unfold evaluateText Program.load
  cases Source.read text with
  | error fault => rfl
  | ok commands =>
    have checked := result_checkCommands commands
    simp only [result_evaluateCommands, bind, Except.bind] at checked ⊢
    rw [checked]
    cases Validation.check Catalog.standard commands <;> rfl

/-- A run lists the program that a call evaluates a text to. -/
theorem runText_eq (text : String) : runText text = (evaluateText text).2.map Program.listing := by
  rw [result_evaluateText, runText]
  simp only [bind, Except.bind, pure, Except.pure]
  cases Program.load text with
  | error fault => rfl
  | ok p => cases evaluated : p.evaluateAll Catalog.standard <;> simp [evaluated, Except.map]

/-- A run fails as the evaluation does. -/
theorem result_of_runText_error {fault : Fault} (failed : runText text = .error fault) :
    (evaluateText text).2 = .error fault := by
  rw [runText_eq] at failed
  cases result : (evaluateText text).2 with
  | error other =>
    rw [result] at failed
    exact congrArg Except.error (Except.error.inj failed)
  | ok done =>
    rw [result] at failed
    cases failed

/-- A run that prints lines is an evaluation to a program with these lines. -/
theorem exists_result_of_runText_ok {lines : List String} (ran : runText text = .ok lines) :
    ∃ done, (evaluateText text).2 = .ok done ∧ done.listing = lines := by
  rw [runText_eq] at ran
  cases result : (evaluateText text).2 with
  | error fault =>
    rw [result] at ran
    cases ran
  | ok done =>
    rw [result] at ran
    exact ⟨done, rfl, Except.ok.inj ran⟩

/-- A run that succeeds prints at least one line. -/
theorem listing_ne_nil_of_runText {lines : List String} (ran : runText text = .ok lines) :
    lines ≠ [] := by
  obtain ⟨done, runs, rfl⟩ := Program.runText_eq_ok_iff.mp ran
  exact runs.listing_ne_nil

end Evaluation

/-! ## Listings -/

section Listings

variable {lines : List String} {name : FileName} {disk written : Disk} {done : Program}

/-- Lines that are joined, with a newline at the end, are lines with a newline after each. -/
theorem unlines_append_newline (some : lines ≠ []) :
    Text.unlines lines ++ "\n" = printLines lines := by
  unfold Text.unlines printLines
  induction lines with
  | nil => exact absurd rfl some
  | cons line rest ih =>
    cases rest with
    | nil => rfl
    | cons next rest =>
      have later := ih (List.cons_ne_nil next rest)
      rw [List.map_cons] at later
      rw [List.map_cons, List.map_cons, Text.joinWith_cons_cons, Text.joinWith_cons_cons,
        String.append_assoc, later, String.append_empty]

/-- Lines that are printed can be seen. -/
theorem printLines_ne_empty (some : lines ≠ []) : printLines lines ≠ "" := by
  rw [← unlines_append_newline some, ne_eq, String.append_eq_empty_iff]
  exact fun empty => absurd empty.2 (by decide)

/-- A listing is written where the output file leads, in one piece. -/
theorem writeListing_eq_ok_iff (some : done.listing ≠ []) :
    writeListing name disk done = .ok written ↔ ∃ path location, name.toPath = .ok path ∧
      disk.place path = .ok location ∧ disk.put location (printLines done.listing) = written := by
  simp only [writeListing, Disk.write, Outcome.bind_eq_ok_iff, Program.text,
    unlines_append_newline some]
  constructor
  · rintro ⟨path, opens, put⟩
    cases placed : disk.place path with
    | error failure => simp only [placed, Except.map, reduceCtorEq] at put
    | ok location =>
      simp only [placed, Except.map, Except.ok.injEq] at put
      exact ⟨path, location, opens, placed, put⟩
  · rintro ⟨path, location, opens, placed, rfl⟩
    refine ⟨path, opens, ?_⟩
    simp only [placed, Except.map]

end Listings

/-! ## Outcomes -/

section Outcomes

variable {arguments : List String} {name output content : String} {target : Option FileName}
  {disk : Disk} {lines : List String} {fault : Fault} {d : Diagnostic}

/-- Of an evaluation between two events of a call nothing is reported. -/
theorem reported_evaluation (text : String) (first : Event) (later : List Event) :
    reported false (first :: (evaluateText text).1 ++ later) = reported false (first :: later) := by
  have nothing : reported false (evaluateText text).1 = [] := by
    rw [reported, List.filter_eq_nil_iff]
    intro event member
    simp [level_of_mem_evaluateText member]
  rw [reported, List.filter_append, List.filter_cons, ← reported, nothing, reported,
    List.filter_cons]
  split <;> rfl

/-- What a call leaves behind that evaluates the content of a readable file. -/
theorem call_of_readable (asks : parseArguments arguments = .run ⟨.path name, target, false⟩)
    (readable : Readable disk name content) {outcome : Outcome}
    (ends : evaluateInput ⟨.path name, target, false⟩ disk content = outcome) :
    call arguments disk =
      ⟨outcome.ending, outcome.printed, reported false outcome.events, outcome.disk⟩ := by
  have opened : runOptions ⟨.path name, target, false⟩ disk = outcome := by
    simp only [runOptions, FileName.toPath, if_neg readable.solid, readable.found, ends]
  rw [call, asks]
  simp only [opened]

/-- A diagnostic is reported, and it is all that is. -/
theorem call_of_diagnostic (asks : parseArguments arguments = .run ⟨.path name, target, false⟩)
    (readable : Readable disk name content)
    (failed : runText (fileText content) = .error (.diagnostic d)) :
    call arguments disk = ⟨.status 1, "", [.inputFile name, .failed (d.report name)], disk⟩ := by
  have result := result_of_runText_error failed
  have ends : evaluateInput ⟨.path name, target, false⟩ disk content =
      ⟨.status 1, "", .inputFile name :: (evaluateText (fileText content)).1 ++
        [.failed (d.report name)], disk⟩ := by
    unfold evaluateInput
    dsimp only
    rw [← fileText, result]
    rfl
  rw [call_of_readable asks readable ends, reported_evaluation]
  rfl

/-- A fault that is no diagnostic escapes. -/
theorem call_of_fault (asks : parseArguments arguments = .run ⟨.path name, target, false⟩)
    (readable : Readable disk name content) (failed : runText (fileText content) = .error fault)
    (other : fault.diagnostic? = none) :
    call arguments disk = ⟨.fault fault, "", [.inputFile name], disk⟩ := by
  have result := result_of_runText_error failed
  have ends : evaluateInput ⟨.path name, target, false⟩ disk content =
      ⟨.fault fault, "", .inputFile name :: (evaluateText (fileText content)).1 ++ [], disk⟩ := by
    unfold evaluateInput
    dsimp only
    rw [← fileText, result, List.append_nil]
    cases fault with
    | diagnostic d => cases other
    | _ => rfl
  rw [call_of_readable asks readable ends, reported_evaluation]
  rfl

/-- Without an output file the lines are printed. -/
theorem call_prints (asks : parseArguments arguments = .run ⟨.path name, none, false⟩)
    (readable : Readable disk name content) (ran : runText (fileText content) = .ok lines) :
    call arguments disk =
      ⟨.normal, printLines lines, [.inputFile name, .finished lines.length], disk⟩ := by
  obtain ⟨done, result, rfl⟩ := exists_result_of_runText_ok ran
  have ends : evaluateInput ⟨.path name, none, false⟩ disk content =
      ⟨.normal, printLines done.listing, .inputFile name :: (evaluateText (fileText content)).1 ++
        [.finished done.size], disk⟩ := by
    unfold evaluateInput
    dsimp only
    rw [← fileText, result]
    rfl
  rw [call_of_readable asks readable ends, reported_evaluation, Program.listing, List.length_map]
  rfl

/-- With an output file the same text is written there. -/
theorem call_writes {location : Location}
    (asks : parseArguments arguments = .run ⟨.path name, some (.path output), false⟩)
    (readable : Readable disk name content) (writable : Writable disk output location)
    (ran : runText (fileText content) = .ok lines) :
    call arguments disk = ⟨.normal, "",
      [.inputFile name, .finished lines.length, .outputFile output],
      disk.put location (printLines lines)⟩ := by
  have some := listing_ne_nil_of_runText ran
  obtain ⟨done, result, rfl⟩ := exists_result_of_runText_ok ran
  have written : writeListing (.path output) disk done =
      .ok (disk.put location (printLines done.listing)) :=
    (writeListing_eq_ok_iff some).mpr
      ⟨output, location, if_neg writable.solid, writable.placed, rfl⟩
  have ends : evaluateInput ⟨.path name, .some (.path output), false⟩ disk content =
      ⟨.normal, "", .inputFile name :: (evaluateText (fileText content)).1 ++
        [.finished done.size, .outputFile output],
        disk.put location (printLines done.listing)⟩ := by
    unfold evaluateInput
    dsimp only
    rw [← fileText, result]
    simp only [deliver, written, List.append_assoc]
    rfl
  rw [call_of_readable asks readable ends, reported_evaluation, Program.listing, List.length_map]
  rfl

end Outcomes

/-! ## Agreement -/

/-- Where carriage returns stand before newlines only, a file is run like the text in it. -/
theorem runText_fileText {content : String} (returns : Source.ReturnsEndLines content.toList) :
    runText (fileText content) = runText content := by
  simp only [runText, Program.load, fileText, Source.read_unifyNewlines returns]

/-- **The command line and the run of a text agree, on both ways out.**  A file, of which the name
is taken for a name, holds a text in which each carriage return is directly followed by a newline.
If a run of the text gives lines, a call prints each line with a newline after it and changes no
file, and a call with an output file prints nothing and leaves this text in the file, and nothing
else is changed.  If the run fails with a diagnostic, both calls report it for the input file, and
nothing else as an error, print nothing, change no file and end with status 1. -/
theorem call_agrees_with_runText {disk : Disk} {name output text : String} (named : IsName name)
    (outputNamed : IsName output) (returns : Source.ReturnsEndLines text.toList)
    (readable : Readable disk name text) :
    (∀ lines, runText text = .ok lines →
      call ["-i", name] disk =
        ⟨.normal, printLines lines, [.inputFile name, .finished lines.length], disk⟩ ∧
      ∀ location, Writable disk output location → ∃ written,
        call ["-i", name, "-o", output] disk =
          ⟨.normal, "", [.inputFile name, .finished lines.length, .outputFile output], written⟩ ∧
        written.read output = .ok (printLines lines) ∧ written.folders = disk.folders ∧
        ∀ other, other ≠ location → written.file? other = disk.file? other) ∧
    ∀ d, runText text = .error (.diagnostic d) →
      call ["-i", name] disk =
        ⟨.status 1, "", [.inputFile name, .failed (d.report name)], disk⟩ ∧
      call ["-i", name, "-o", output] disk =
        ⟨.status 1, "", [.inputFile name, .failed (d.report name)], disk⟩ := by
  have printing := parseArguments_input named
  have writing := parseArguments_input_output named outputNamed
  rw [← runText_fileText returns]
  refine ⟨fun lines ran => ⟨call_prints printing readable ran, fun location writable => ?_⟩,
    fun d failed => ⟨call_of_diagnostic printing readable failed,
      call_of_diagnostic writing readable failed⟩⟩
  exact ⟨_, call_writes writing readable writable ran, Disk.read_put writable.placed,
    Disk.folders_put, fun other different => Disk.file?_put_of_ne different⟩

/-- A text whose lines end with a carriage return and a newline. -/
def returnText : String := "U a b\r\nS a\r\n\r\nC card 2 # one\r\n"

/-- A text that repeats an element on its second line. -/
def repeatText : String := "U a b\r\nS a a\r\nC card 2"

/-- The first of these files is evaluated, the second is refused. -/
theorem call_agrees_with_runText_returnText :
    call ["-i", "good.txt"] (.ofFiles [("good.txt", returnText)]) =
      ⟨.normal, "U a b\nS a\n1\n", [.inputFile "good.txt", .finished 3],
        .ofFiles [("good.txt", returnText)]⟩ ∧
    (∃ written, call ["-i", "good.txt", "-o", "out.txt"] (.ofFiles [("good.txt", returnText)]) =
        ⟨.normal, "", [.inputFile "good.txt", .finished 3, .outputFile "out.txt"], written⟩ ∧
      written.read "out.txt" = .ok "U a b\nS a\n1\n") ∧
    call ["-i", "bad.txt", "-o", "out.txt"] (.ofFiles [("bad.txt", repeatText)]) =
      ⟨.status 1, "", [.inputFile "bad.txt",
        .failed "bad.txt:2: set-element: Element a is repeated."],
        .ofFiles [("bad.txt", repeatText)]⟩ := by
  have good : Readable (.ofFiles [("good.txt", returnText)]) "good.txt" returnText :=
    ⟨by decide, by decide +kernel⟩
  have bad : Readable (.ofFiles [("bad.txt", repeatText)]) "bad.txt" repeatText :=
    ⟨by decide, by decide +kernel⟩
  have place : Writable (.ofFiles [("good.txt", returnText)]) "out.txt" ⟨false, ["out.txt"]⟩ :=
    ⟨by decide, by decide +kernel⟩
  have ran : runText returnText = .ok ["U a b", "S a", "1"] := by decide +kernel
  have failed : runText repeatText =
      .error (.diagnostic ⟨.repeatedElement "a", some 2, some 2⟩) := by decide +kernel
  have output : IsName "out.txt" := by decide
  obtain ⟨agrees, -⟩ := call_agrees_with_runText (by decide) output (by decide +kernel) good
  obtain ⟨-, refused⟩ := call_agrees_with_runText (by decide) output (by decide +kernel) bad
  obtain ⟨prints, writes⟩ := agrees _ ran
  obtain ⟨written, called, held, -⟩ := writes _ place
  exact ⟨prints, ⟨written, called, held⟩, (refused _ failed).2⟩

/-- What the command line does not take for a name is no input file, though there be such a file. -/
theorem call_of_not_isName {name : String} (unnamed : ¬ IsName name) (disk : Disk) :
    call ["-i", name] disk = ⟨.status 2, "", [], disk⟩ := by
  rw [call, parseArguments_input_of_not_isName unnamed]

/-- A file with a name that looks like an option can be read and its text is run to its end, but the
command line refuses the name. -/
theorem call_dashedName :
    Readable (.ofFiles [("-p.txt", returnText)]) "-p.txt" returnText ∧
      Source.ReturnsEndLines returnText.toList ∧ runText returnText = .ok ["U a b", "S a", "1"] ∧
      call ["-i", "-p.txt"] (.ofFiles [("-p.txt", returnText)]) =
        ⟨.status 2, "", [], .ofFiles [("-p.txt", returnText)]⟩ :=
  ⟨⟨by decide, by decide +kernel⟩, by decide +kernel, by decide +kernel,
    call_of_not_isName (by decide) _⟩

end RelCalc.CommandLine
