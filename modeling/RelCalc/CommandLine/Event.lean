/-
  `CommandLine.Event`: what a call of the command line reports on its way.

  Events say which file is read, which rules are looked at, which lines are
  evaluated and how the call ends.  Each has a level; the fine-grained ones are
  only reported on request.  The time a call took is known to the caller alone,
  who supplies its text.
-/
import RelCalc.Validation.Verdict

set_option autoImplicit false

namespace RelCalc.CommandLine

/-- How important an event is. -/
inductive Level where
  | debug
  | info
  | error
  deriving DecidableEq, Repr, Inhabited

/-- The word for a level. -/
def Level.name : Level → String
  | debug => "DEBUG"
  | info => "INFO"
  | error => "ERROR"

/-- Something that happens during a call. -/
inductive Event where
  | inputFile (path : String)
  | parsed (commands : Nat)
  | checking (rule : Validation.Rule)
  | validated (commands : Nat)
  | evaluatedLine (index : Nat) (before after : String)
  | evaluatedAll (lines : Nat)
  | finished (lines : Nat)
  | outputFile (path : String)
  | failed (report : String)
  deriving DecidableEq, Repr, Inhabited

namespace Event

/-- The level of an event. -/
def level : Event → Level
  | inputFile _ => .info
  | parsed _ => .debug
  | checking _ => .debug
  | validated _ => .debug
  | evaluatedLine .. => .debug
  | evaluatedAll _ => .debug
  | finished _ => .info
  | outputFile _ => .info
  | failed _ => .error

/-- The text of an event, given the text of the seconds that the evaluation took. -/
def text (seconds : String) : Event → String
  | inputFile path => s!"Input file: {path}"
  | parsed commands => s!"Parsed {commands} command(s)"
  | checking rule => "Checking check_" ++ rule.name
  | validated commands => s!"Validated {commands} command(s)"
  | evaluatedLine index before after => s!"Line {index}: {before} => {after}"
  | evaluatedAll lines => s!"Evaluated {lines} line(s)"
  | finished lines => s!"Evaluated {lines} line(s) in {seconds}s"
  | outputFile path => s!"Output file: {path}"
  | failed report => report

/-- The event as a line of the log. -/
def record (seconds : String) (event : Event) : String :=
  event.level.name ++ " " ++ event.text seconds

end Event

/-- The events that are reported: all of them, or all but the fine-grained ones. -/
def reported (debug : Bool) (events : List Event) : List Event :=
  events.filter fun event => debug || decide (event.level ≠ .debug)

end RelCalc.CommandLine
