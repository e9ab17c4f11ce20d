/-
  `Proofs.CommandLine.Frame`: what a call leaves behind.

  A call goes through stages: its arguments are read, the input file is read, the text is
  evaluated, the listing is delivered.  Each stage either fails, and then nothing has been printed
  and the disk is as it was, or hands on to the next.  The disk is written once, after the last
  thing that can fail, so it makes no difference whether the output file is the input file.
-/
import RelCalc.Proofs.CommandLine.Call

set_option autoImplicit false

namespace RelCalc.CommandLine

/-- One file of a disk was written; everything else is as it was. -/
structure Disk.Frame (disk : Disk) (location : Location) (content : String) (written : Disk) :
    Prop where
  held : written.file? location = some content
  others : ∀ other, other ≠ location → written.file? other = disk.file? other
  folders : written.folders = disk.folders

theorem Disk.frame_put (disk : Disk) (location : Location) (content : String) :
    disk.Frame location content (disk.put location content) :=
  ⟨disk.file?_put location content, fun _ different => file?_put_of_ne different, folders_put⟩

namespace Outcome

/-- A call has failed: its arguments were refused, it has reported why it failed, or a fault
escaped.  It has printed nothing and the disk is as it was. -/
structure LeavesNoTrace (disk : Disk) (outcome : Outcome) : Prop where
  ending : outcome.ending = .status 2 ∨ outcome.ending = .status 1 ∨
    ∃ fault, outcome.ending = .fault fault
  printed : outcome.printed = ""
  disk : outcome.disk = disk

/-- A call has delivered the lines of a listing: with an output file they are in it, and otherwise
they were printed. -/
structure Delivers (disk : Disk) (output : Option FileName) (lines : List String)
    (outcome : Outcome) : Prop where
  ending : outcome.ending = .normal
  prints : output = none → outcome.printed = printLines lines ∧ outcome.disk = disk
  writes : ∀ name, output = some name → outcome.printed = "" ∧ ∃ path location,
    name.toPath = .ok path ∧ disk.place path = .ok location ∧
      outcome.disk.read path = .ok (printLines lines) ∧
        disk.Frame location (printLines lines) outcome.disk
  silent : outcome.printed = "" ↔ output ≠ none

end Outcome

/-! ## Stages -/

/-- The last stage: only the output file can be out of reach. -/
theorem deliver_leaves {done : Program} (some : done.listing ≠ []) (output : Option FileName)
    (disk : Disk) (events : List Event) :
    (deliver output disk events done).LeavesNoTrace disk ∨
      (deliver output disk events done).Delivers disk output done.listing := by
  cases output with
  | none =>
    refine .inr ⟨rfl, fun _ => ⟨rfl, rfl⟩, fun name given => (by cases given), ?_⟩
    have visible : printLines done.listing ≠ "" := printLines_ne_empty some
    exact ⟨fun silent => absurd silent visible, fun given => absurd rfl given⟩
  | some name =>
    cases listed : writeListing name disk done with
    | error fault =>
      refine .inl ?_
      rw [deliver, listed]
      exact ⟨.inr (.inr ⟨fault, rfl⟩), rfl, rfl⟩
    | ok written =>
      obtain ⟨path, location, opens, placed, rfl⟩ := (writeListing_eq_ok_iff some).mp listed
      refine .inr ?_
      rw [deliver, listed]
      refine ⟨rfl, fun absent => (by cases absent), fun other given => ?_,
        ⟨fun _ => Option.some_ne_none name, fun _ => rfl⟩⟩
      cases given
      exact ⟨rfl, path, location, opens, placed, Disk.read_put placed, disk.frame_put location _⟩

/-- Evaluation is the last but one: a text that cannot be evaluated is not delivered. -/
theorem evaluateInput_leaves (options : Options) (disk : Disk) (content : String) :
    (evaluateInput options disk content).LeavesNoTrace disk ∨
      ∃ lines, runText (fileText content) = .ok lines ∧
        (evaluateInput options disk content).Delivers disk options.output lines := by
  unfold evaluateInput
  dsimp only
  rw [← fileText]
  cases result : (evaluateText (fileText content)).2 with
  | ok done =>
    have ran : runText (fileText content) = .ok done.listing := by
      rw [runText_eq, result]
      rfl
    rcases deliver_leaves (listing_ne_nil_of_runText ran) options.output disk
      (.inputFile options.input.text :: (evaluateText (fileText content)).1) with fails | delivers
    · exact .inl fails
    · exact .inr ⟨done.listing, ran, delivers⟩
  | error fault =>
    refine .inl ?_
    cases fault with
    | diagnostic d => exact ⟨.inr (.inl rfl), rfl, rfl⟩
    | _ => exact ⟨.inr (.inr ⟨_, rfl⟩), rfl, rfl⟩

/-- The input file is read before that, while the disk is still as it was. -/
theorem runOptions_leaves (options : Options) (disk : Disk) :
    (runOptions options disk).LeavesNoTrace disk ∨
      ∃ path content lines, options.input.toPath = .ok path ∧ disk.read path = .ok content ∧
        runText (fileText content) = .ok lines ∧
          (runOptions options disk).Delivers disk options.output lines := by
  unfold runOptions
  cases opens : options.input.toPath with
  | error fault => exact .inl ⟨.inr (.inr ⟨fault, rfl⟩), rfl, rfl⟩
  | ok path =>
    cases found : disk.read path with
    | error failure =>
      simp only [found]
      exact .inl ⟨.inr (.inl rfl), rfl, rfl⟩
    | ok content =>
      simp only [found]
      rcases evaluateInput_leaves options disk content with fails | ⟨lines, ran, delivers⟩
      · exact .inl fails
      · exact .inr ⟨path, content, lines, rfl, found, ran, delivers⟩

/-! ## Calls -/

/-- **A call that fails leaves no trace.**  Take any arguments that do not ask for help, and any
disk.  If the call does not end normally, it has printed nothing and the disk is as it was.  If it
ends normally, the input file could be read and the run of its text has lines.  Without an output
file these are printed and the disk is as it was; with one, nothing is printed, the lines are in
that file, and everything else on the disk is as it was. -/
theorem call_leaves_no_trace {arguments : List String}
    (noHelp : parseArguments arguments ≠ .help) (disk : Disk) :
    ((call arguments disk).ending ≠ .normal → (call arguments disk).LeavesNoTrace disk) ∧
      ((call arguments disk).ending = .normal → ∃ options path content lines,
        parseArguments arguments = .run options ∧ options.input.toPath = .ok path ∧
          disk.read path = .ok content ∧ runText (fileText content) = .ok lines ∧
            (call arguments disk).Delivers disk options.output lines) := by
  rw [call]
  cases asks : parseArguments arguments with
  | help => exact absurd asks noHelp
  | usageError => exact ⟨fun _ => ⟨.inl rfl, rfl, rfl⟩, fun normal => (by cases normal)⟩
  | run options =>
    -- A call reports less than its last stage has noted; the rest of the outcome is the same.
    rcases runOptions_leaves options disk with
      fails | ⟨path, content, lines, opens, found, ran, sent⟩
    · refine ⟨fun _ => ⟨fails.ending, fails.printed, fails.disk⟩, fun normal => ?_⟩
      rcases fails.ending with refused | reported | ⟨fault, escaped⟩
      · cases refused.symm.trans normal
      · cases reported.symm.trans normal
      · cases escaped.symm.trans normal
    · exact ⟨fun abnormal => absurd sent.ending abnormal, fun _ => ⟨options, path, content, lines,
        rfl, opens, found, ran, sent.ending, sent.prints, sent.writes, sent.silent⟩⟩

/-- Arguments that name the same file for input and for output. -/
def inPlace : List String := ["-i", "sets.txt", "-o", "sets.txt"]

/-- The first of these files is replaced with its listing.  The second has an element that is not
declared, and is left as it is. -/
theorem call_leaves_no_trace_inPlace :
    parseArguments inPlace ≠ .help ∧
      (call inPlace (.ofFiles [("sets.txt", "U a b\nS a\nC card 2")])).printed = "" ∧
      (call inPlace (.ofFiles [("sets.txt", "U a b\nS a\nC card 2")])).disk.read "sets.txt" =
        .ok "U a b\nS a\n1\n" ∧
      (call inPlace (.ofFiles [("sets.txt", "U a b\nS c")])).disk =
        .ofFiles [("sets.txt", "U a b\nS c")] := by
  have noHelp : parseArguments inPlace ≠ .help := by decide +kernel
  obtain ⟨-, finished⟩ :=
    call_leaves_no_trace noHelp (.ofFiles [("sets.txt", "U a b\nS a\nC card 2")])
  obtain ⟨failed, -⟩ := call_leaves_no_trace noHelp (.ofFiles [("sets.txt", "U a b\nS c")])
  obtain ⟨options, path, content, lines, asks, opens, found, ran, sent⟩ :=
    finished (by decide +kernel)
  have asked : parseArguments inPlace =
      .run ⟨.path "sets.txt", some (.path "sets.txt"), false⟩ := by decide +kernel
  cases asked.symm.trans asks
  cases opens
  have read : (Disk.ofFiles [("sets.txt", "U a b\nS a\nC card 2")]).read "sets.txt" =
      .ok "U a b\nS a\nC card 2" := by decide +kernel
  cases read.symm.trans found
  have listed : runText (fileText "U a b\nS a\nC card 2") = .ok ["U a b", "S a", "1"] := by
    decide +kernel
  cases listed.symm.trans ran
  obtain ⟨printed, path, location, leads, -, written, -⟩ := sent.writes _ rfl
  cases leads
  exact ⟨noHelp, printed, written, (failed (by decide +kernel)).disk⟩

end RelCalc.CommandLine
