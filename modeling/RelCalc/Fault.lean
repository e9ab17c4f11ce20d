/-
  `Fault`: everything that can end a computation early.

  Most faults are diagnostics.  The others arise where something is asked of
  data that nobody has checked: an operand that is no number, a position outside
  a list, a name that is not in the catalog.  Each has its message here.
-/
import RelCalc.Diagnostic
import RelCalc.Text.Quoted

set_option autoImplicit false

namespace RelCalc

/-- Why a file cannot be opened. -/
inductive OpenFailure where
  /-- There is no such file, or no folder for it. -/
  | missing
  /-- The path leads to a folder. -/
  | folder
  /-- The path goes on below something that is no folder. -/
  | belowFile
  /-- A name in the path is too long. -/
  | nameTooLong
  deriving DecidableEq, Repr, Inhabited

namespace OpenFailure

/-- The number of the failure. -/
def number : OpenFailure → Nat
  | missing => 2
  | folder => 21
  | belowFile => 20
  | nameTooLong => 36

/-- The failure in words. -/
def reason : OpenFailure → String
  | missing => "No such file or directory"
  | folder => "Is a directory"
  | belowFile => "Not a directory"
  | nameTooLong => "File name too long"

end OpenFailure

/-- Why a computation ends without a result. -/
inductive Fault where
  /-- A diagnostic about a program. -/
  | diagnostic (d : Diagnostic)
  /-- A relation is built from an odd number of components. -/
  | halfPair (count : Nat)
  /-- A command whose first word has no meaning cannot become a slot. -/
  | unknownWord (word : String)
  /-- An operand does not have the form of a number. -/
  | notANumber (token : String)
  /-- An operand is a number with too many digits. -/
  | tooManyDigits (digits : Nat)
  /-- A message or a line would hold a number that needs too many digits. -/
  | notSpelled
  /-- Two operations of a catalog have the same name. -/
  | duplicateOperation (name : String)
  /-- The first entry of an empty list is asked for. -/
  | emptyList
  /-- A slot is asked for whose position is outside the program. -/
  | noSlot (index : Int) (count : Nat)
  /-- An operation is asked for whose name is not in the catalog. -/
  | noOperation (name : String)
  /-- The kind of value is asked for that a command without a role would hold. -/
  | noRoleKind
  /-- The letter of a command without a role is asked for. -/
  | noRoleLetter
  /-- A slot of the named type has no field of the given name. -/
  | noField (holder field : String)
  /-- The ground set is something that has no elements. -/
  | noElements (typeName : String)
  /-- A routine is called without operands for the named parameters. -/
  | missingOperands (routine : String) (parameters : List String)
  /-- A routine is called with more operands than it has parameters. -/
  | extraOperands (routine : String) (parameters given : Nat)
  /-- A routine is applied to operands it is not made for. -/
  | misapplied (routine : String)
  /-- A line would hold a set whose elements are pairs; no text spells such a set. -/
  | pairsInSet
  /-- A datum is not a value. -/
  | notAValue (spelling typeName : String)
  /-- A file cannot be opened. -/
  | cannotOpen (path : String) (failure : OpenFailure)
  /-- A path holds the character U+0000. -/
  | nullInPath
  /-- A file is to be opened and its option holds no name. -/
  | noPath
  deriving DecidableEq, Repr, Inhabited

namespace Fault

/-- The message for a numeral with too many digits, with what is known of it. -/
def tooManyDigitsMessage (known : String) : String :=
  "Exceeds the limit (4300 digits) for integer string conversion" ++ known ++
    "; use sys.set_int_max_str_digits() to increase the limit"

/-- The longest quotation of a token that is not a number. -/
def maxQuotation : Nat := 200

/-- The message for a token that is not a number, its quotation cut short if need be. -/
def notANumberMessage (token : String) : String :=
  "invalid literal for int() with base 10: " ++
    String.ofList ((Text.quote token).toList.take maxQuotation)

/-- Quoted names in a row, the last one after the word and. -/
def enumerate : List String → String
  | [] => ""
  | [name] => Text.quote name
  | [first, second] => Text.quote first ++ " and " ++ Text.quote second
  | names => Text.joinWith ", " (names.dropLast.map Text.quote) ++ ", and " ++
      Text.joinWith "" (names.getLast?.toList.map Text.quote)

/-- A count of arguments. -/
def arguments (count : Nat) (kind : String) : String :=
  toString count ++ " " ++ kind ++ (if count = 1 then " argument" else " arguments")

/-- The message of a fault. -/
def message : Fault → String
  | diagnostic d => d.message
  | halfPair count => s!"A relation needs an even number of elements, but got {count}."
  | unknownWord word => "Unknown command kind " ++ Text.quote word
  | notANumber token => notANumberMessage token
  | tooManyDigits digits => tooManyDigitsMessage (": value has " ++ toString digits ++ " digits")
  | notSpelled => tooManyDigitsMessage ""
  | duplicateOperation name => s!"Operation {name} is defined twice."
  | emptyList => "list index out of range"
  | noSlot index count => Cause.outOfRangeMessage index count
  | noOperation name => Text.quote name
  | noRoleKind => "None"
  | noRoleLetter => "'NoneType' object has no attribute 'value'"
  | noField holder field => s!"'{holder}' object has no attribute '{field}'"
  | noElements typeName => s!"'{typeName}' object is not iterable"
  | missingOperands routine parameters =>
      routine ++ "() missing " ++ arguments parameters.length "required positional" ++ ": " ++
        enumerate parameters
  | extraOperands routine parameters given =>
      routine ++ "() takes " ++ arguments parameters "positional" ++ " but " ++
        toString given ++ " were given"
  | misapplied routine => s!"{routine} cannot be applied to these operands"
  | pairsInSet => "sequence item 0: expected str instance, tuple found"
  | notAValue spelling typeName => s!"Not a setcal value: {spelling} of type <class '{typeName}'>"
  | cannotOpen path failure =>
      "[Errno " ++ toString failure.number ++ "] " ++ failure.reason ++ ": " ++ Text.quote path
  | nullInPath => "embedded null byte"
  | noPath => "expected str, bytes or os.PathLike object, not list"

/-- After this fault nothing more can be asked of a program: the line it arises in cannot be
printed, and so the program has no listing. -/
def endsSession : Fault → Bool
  | pairsInSet => true
  | _ => false

/-- The diagnostic that a fault is, if it is one. -/
def diagnostic? : Fault → Option Diagnostic
  | diagnostic d => some d
  | _ => none

end Fault

end RelCalc
