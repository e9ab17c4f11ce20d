/-
  `CommandLine.Options`: the arguments of the command line.

  There are three options, an input file, an output file and a debug switch, and
  a request for help.  Each has a short and a long form; a long form may be cut
  short, since no two begin alike.  A file name follows as the next argument or is
  attached; short forms can be written together.  Of a repeated option the last
  one counts.  Every other argument is a usage error, but help comes first.
-/
import RelCalc.Fault
import RelCalc.Text.Digit

set_option autoImplicit false

namespace RelCalc.CommandLine

/-- What an option that takes a file name was given. -/
inductive FileName where
  | path (name : String)
  /-- Two dashes attached to the option were dropped, and no name is left. -/
  | dropped
  deriving DecidableEq, Repr, Inhabited

namespace FileName

/-- What is attached to an option as a file name. -/
def attached (chars : List Char) : FileName :=
  if chars = ['-', '-'] then dropped else path (String.ofList chars)

/-- A file name as it is reported. -/
def text : FileName → String
  | path name => name
  | dropped => "[]"

/-- The path to open.  It must not hold the character U+0000. -/
def toPath : FileName → Except Fault String
  | path name => if '\x00' ∈ name.toList then .error .nullInPath else .ok name
  | dropped => .error .noPath

end FileName

/-- What the program is asked to do. -/
structure Options where
  input : FileName
  output : Option FileName
  debug : Bool
  deriving DecidableEq, Repr, Inhabited

/-- What an argument list amounts to. -/
inductive Request where
  | run (options : Options)
  | help
  | usageError
  deriving DecidableEq, Repr, Inhabited

/-- The options, by what they are for. -/
inductive Switch where
  | input
  | output
  | debug
  | help
  deriving DecidableEq, Repr, Inhabited

namespace Switch

/-- All options. -/
def all : List Switch := [input, output, debug, help]

/-- The long form of an option, after the two dashes. -/
def longForm : Switch → List Char
  | input => "input_file".toList
  | output => "output_file".toList
  | debug => "debug".toList
  | help => "help".toList

/-- The option of a letter, its short form after the dash. -/
def ofLetter? : Char → Option Switch
  | 'i' => some input
  | 'o' => some output
  | 'd' => some debug
  | 'h' => some help
  | _ => none

/-- The option takes a file name. -/
def takesValue : Switch → Bool
  | input => true
  | output => true
  | debug => false
  | help => false

/-- The option that a beginning of its long form means, if there is exactly one. -/
def ofBeginning? (beginning : List Char) : Option Switch :=
  match all.filter fun switch => beginning.isPrefixOf switch.longForm with
  | [switch] => some switch
  | _ => none

end Switch

/-! ## One argument -/

/-- The digits of a negative number, whole or with a fraction; a newline may follow. -/
def isNegativeNumber (digits : List Char) : Bool :=
  let body := if digits.getLast? = some '\n' then digits.dropLast else digits
  let isDigit (c : Char) : Bool := (Text.decimalDigit? c).isSome
  let fraction := body.dropWhile isDigit
  match fraction with
  | [] => !body.isEmpty
  | '.' :: decimals => !decimals.isEmpty && decimals.all isDigit
  | _ => false

/-- An argument that starts with a dash and is no option can still be a file name:
a negative number, or anything with a blank in it. -/
def isDashedValue (afterDash : List Char) : Bool :=
  isNegativeNumber afterDash || decide (' ' ∈ afterDash)

/-- What a single argument is. -/
inductive Argument where
  /-- It can be a file name. -/
  | value
  /-- The long form of an option, with what is attached to it. -/
  | long (switch : Switch) (attached : Option (List Char))
  /-- The short form of an option, with what is attached after an equals sign. -/
  | short (switch : Switch) (attached : List Char)
  /-- Short forms, one after the other. -/
  | letters (chars : List Char)
  /-- Two dashes alone: what follows is never an option. -/
  | separator
  /-- An equals sign where a long form should be: every long form begins like this. -/
  | ambiguous
  /-- Nothing the command line knows. -/
  | unknown
  deriving DecidableEq, Repr, Inhabited

/-- What is attached after the first equals sign. -/
def attachment (text : List Char) : Option (List Char) :=
  match text.dropWhile fun c => c ≠ '=' with
  | [] => none
  | _ :: attached => some attached

/-- An argument that starts with two dashes, by what follows them. -/
def classifyLong (afterDashes : List Char) : Argument :=
  match afterDashes with
  | [] => .separator
  | '=' :: _ => .ambiguous
  | _ =>
      match Switch.ofBeginning? (afterDashes.takeWhile fun c => c ≠ '=') with
      | some switch => .long switch (attachment afterDashes)
      | none => if isDashedValue ('-' :: afterDashes) then .value else .unknown

/-- An argument that starts with one dash, by what follows it. -/
def classifyShort (letter : Char) (rest : List Char) : Argument :=
  match Switch.ofLetter? letter, rest with
  | some switch, '=' :: attached => .short switch attached
  | some _, _ => .letters (letter :: rest)
  | none, _ => if isDashedValue (letter :: rest) then .value else .unknown

/-- What an argument is, by its characters. -/
def classify : List Char → Argument
  | '-' :: '-' :: afterDashes => classifyLong afterDashes
  | '-' :: letter :: rest => classifyShort letter rest
  | _ => .value

/-! ## The argument list -/

/-- What has been found so far. -/
structure Draft where
  input : Option FileName
  output : Option FileName
  debug : Bool
  /-- Help was asked for. -/
  help : Bool
  /-- There was an argument with no use. -/
  stray : Bool
  deriving DecidableEq, Repr, Inhabited

namespace Draft

/-- Nothing found yet. -/
def blank : Draft := ⟨none, none, false, false, false⟩

/-- One more file name. -/
def setName (draft : Draft) (switch : Switch) (name : FileName) : Draft :=
  match switch with
  | .input => { draft with input := some name }
  | .output => { draft with output := some name }
  | .debug => draft
  | .help => draft

/-- One more option without a file name. -/
def turnOn (draft : Draft) (switch : Switch) : Draft :=
  match switch with
  | .input => draft
  | .output => draft
  | .debug => { draft with debug := true }
  | .help => { draft with help := true }

/-- One more argument with no use. -/
def passOver (draft : Draft) : Draft := { draft with stray := true }

/-- What the options amount to; the input file is required. -/
def finish (draft : Draft) : Request :=
  match draft.input, draft.stray with
  | some input, false => .run ⟨input, draft.output, draft.debug⟩
  | _, _ => .usageError

end Draft

/-- What an argument does to what has been found so far. -/
inductive Effect where
  /-- The argument is complete. -/
  | done (draft : Draft)
  /-- A file name must follow. -/
  | awaits (switch : Switch) (draft : Draft)
  | usageError
  deriving DecidableEq, Repr, Inhabited

/-- Short forms from left to right.  The first that takes a file name takes all the rest. -/
def readLetters (draft : Draft) : List Char → Effect
  | [] => .done draft
  | letter :: rest =>
      match Switch.ofLetter? letter with
      | none => .usageError
      | some switch =>
          if switch.takesValue then
            if rest.isEmpty then .awaits switch draft
            else .done (draft.setName switch (.attached rest))
          else readLetters (draft.turnOn switch) rest

/-- A short form with something attached after an equals sign.  An option that takes no
file name is followed by other short forms there. -/
def readShort (draft : Draft) (switch : Switch) (attached : List Char) : Effect :=
  if switch.takesValue then .done (draft.setName switch (.attached attached))
  else if attached.isEmpty then .usageError
  else readLetters (draft.turnOn switch) attached

/-- A long form and what is attached to it. -/
def readLong (draft : Draft) (switch : Switch) (attached : Option (List Char)) : Effect :=
  match switch.takesValue, attached with
  | true, some name => .done (draft.setName switch (.attached name))
  | true, none => .awaits switch draft
  | false, some _ => .usageError
  | false, none => .done (draft.turnOn switch)

/-- What an argument does where an option is expected. -/
def readArgument (draft : Draft) (argument : String) : Effect :=
  match classify argument.toList with
  | .letters chars => readLetters draft chars
  | .short switch attached => readShort draft switch attached
  | .long switch attached => readLong draft switch attached
  | .value => .done draft.passOver
  | .unknown => .done draft.passOver
  | .separator => .usageError
  | .ambiguous => .usageError

/-- Read arguments one after the other, up to a request for help. -/
def readArguments (draft : Draft) : List String → Request
  | [] => if draft.help then .help else draft.finish
  | argument :: rest =>
      if draft.help then .help
      else
        match readArgument draft argument with
        | .usageError => .usageError
        | .done next => readArguments next rest
        | .awaits switch next =>
            match rest with
            | [] => .usageError
            | name :: later =>
                if classify name.toList = .value then
                  readArguments (next.setName switch (.path name)) later
                else .usageError

/-- The argument could be any long form. -/
def isAmbiguous (argument : String) : Bool := classify argument.toList = .ambiguous

/-- What an argument list amounts to.  Ambiguous arguments are refused before anything is
read. -/
def parseArguments (arguments : List String) : Request :=
  if (arguments.takeWhile fun argument => argument ≠ "--").any isAmbiguous then .usageError
  else readArguments Draft.blank arguments

end RelCalc.CommandLine
