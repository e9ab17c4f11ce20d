/-
  `CommandLine.Call`: one call of the command line, as a function.

  A call takes an argument list and a disk.  It ends in one of three ways, and
  hands back what it printed, what it reported and the disk afterwards.  Only a
  call that ends normally prints anything or changes the disk.
-/
import RelCalc.CommandLine.Disk
import RelCalc.CommandLine.Event
import RelCalc.CommandLine.Options
import RelCalc.Program.Evaluation
import RelCalc.Text.Newline

set_option autoImplicit false

namespace RelCalc.CommandLine

/-- How a call ends. -/
inductive Exit where
  /-- Normally. -/
  | normal
  /-- With a status. -/
  | status (code : Nat)
  /-- With a fault that is not reported. -/
  | fault (f : Fault)
  deriving DecidableEq, Repr, Inhabited

/-- What a call leaves behind. -/
structure Outcome where
  ending : Exit
  printed : String
  events : List Event
  disk : Disk
  deriving DecidableEq, Repr, Inhabited

/-- The lines of a listing, a newline after each. -/
def printLines (lines : List String) : String :=
  Text.joinWith "" (lines.map fun line => line ++ "\n")

/-- The events of calls that became results: each line before and after. -/
def lineEvents (before after : Program) : List Event :=
  (before.slots.zip after.slots).filterMap fun entry =>
    if entry.1.content.isCall ∧ entry.2.content.isCall = false then
      some (.evaluatedLine entry.1.index entry.1.text entry.2.text)
    else none

/-- Make commands that keep all rules a program and evaluate it. -/
def evaluateCommands (commands : List Command) : List Event × Except Fault Program :=
  match Program.ofCommands commands with
  | .error fault => ([], .error fault)
  | .ok program =>
      match program.run Catalog.standard with
      | (stopped, some fault) => (lineEvents program stopped, .error fault)
      | (done, none) => (lineEvents program done ++ [.evaluatedAll done.size], .ok done)

/-- Check commands and, if they keep all rules, evaluate them. -/
def checkCommands (commands : List Command) : List Event × Except Fault Program :=
  let checks :=
    (Validation.consulted Catalog.standard commands Validation.Rule.all).map Event.checking
  match Validation.check Catalog.standard commands with
  | .error fault => (checks, .error fault)
  | .ok () =>
      let (events, result) := evaluateCommands commands
      (checks ++ .validated commands.length :: events, result)

/-- Read, check and evaluate a text, with everything that is reported on the way. -/
def evaluateText (text : String) : List Event × Except Fault Program :=
  match Source.read text with
  | .error fault => ([], .error fault)
  | .ok commands =>
      let (events, result) := checkCommands commands
      (.parsed commands.length :: events, result)

/-- Write the listing of an evaluated program to the output file. -/
def writeListing (name : FileName) (disk : Disk) (done : Program) : Except Fault Disk := do
  let path ← name.toPath
  match disk.write path (done.text ++ "\n") with
  | .error failure => .error (.cannotOpen path failure)
  | .ok written => .ok written

/-- The listing of an evaluated program goes to the output file, or is printed. -/
def deliver (output : Option FileName) (disk : Disk) (events : List Event) (done : Program) :
    Outcome :=
  let events := events ++ [.finished done.size]
  match output with
  | none => ⟨.normal, printLines done.listing, events, disk⟩
  | some name =>
      match writeListing name disk done with
      | .error fault => ⟨.fault fault, "", events, disk⟩
      | .ok written => ⟨.normal, "", events ++ [.outputFile name.text], written⟩

/-- Evaluate the content of the input file. -/
def evaluateInput (options : Options) (disk : Disk) (content : String) : Outcome :=
  let name := options.input.text
  let text := String.ofList (Text.unifyNewlines content.toList)
  let (events, result) := evaluateText text
  let events := .inputFile name :: events
  match result with
  | .ok done => deliver options.output disk events done
  | .error (.diagnostic d) => ⟨.status 1, "", events ++ [.failed (d.report name)], disk⟩
  | .error fault => ⟨.fault fault, "", events, disk⟩

/-- Do what the options ask for. -/
def runOptions (options : Options) (disk : Disk) : Outcome :=
  let name := options.input.text
  match options.input.toPath with
  | .error fault => ⟨.fault fault, "", [.inputFile name], disk⟩
  | .ok path =>
      match disk.read path with
      | .error failure =>
          ⟨.status 1, "", [.inputFile name, .failed (name ++ ": io: " ++ failure.reason)], disk⟩
      | .ok content => evaluateInput options disk content

/-- One call of the command line. -/
def call (arguments : List String) (disk : Disk) : Outcome :=
  match parseArguments arguments with
  | .help => ⟨.status 0, "", [], disk⟩
  | .usageError => ⟨.status 2, "", [], disk⟩
  | .run options =>
      let outcome := runOptions options disk
      ⟨outcome.ending, outcome.printed, reported options.debug outcome.events, outcome.disk⟩

end RelCalc.CommandLine
