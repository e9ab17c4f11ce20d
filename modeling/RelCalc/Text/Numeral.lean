/-
  `Text.Numeral`: numbers written in base ten.

  Two readers live here.  The strict one accepts a non-empty run of ASCII digits
  and nothing else; it reads the operands of a checked program.  The lenient one
  also accepts white space around the number, a sign, digits of any script and
  single underscores between digits; it reads operands nobody has checked.  Both
  refuse a number of more than 4300 digits, leading zeros included; the lenient
  one does so before it looks at what follows the digits.  The same bound holds for
  numbers that are written, without leading zeros then: a longer one has no numeral.
-/
import RelCalc.Text.Blank
import RelCalc.Text.Digit

set_option autoImplicit false

namespace RelCalc.Text

/-- Why a text is not read as a number. -/
inductive NumeralFault where
  /-- The text does not have the form of a number. -/
  | malformed
  /-- The text is a number with too many digits. -/
  | tooLong (digits : Nat)
  deriving DecidableEq, Repr, Inhabited

/-- The most digits a number may be written with. -/
def maxDigits : Nat := 4300

/-- The least number that needs more digits. -/
def digitBound : Nat := Nat.pow 10 maxDigits

/-- A number is spelled by a numeral if it needs few enough digits. -/
def isSpelled (n : Int) : Bool := n.natAbs < digitBound

/-- The number that a list of digits stands for, the first digit leading. -/
def ofDigits (digits : List Nat) : Nat := digits.foldl (fun n digit => 10 * n + digit) 0

/-- The value of a digit list, unless the list is too long. -/
def boundedOfDigits (digits : List Nat) : Except NumeralFault Nat :=
  if digits.length ≤ maxDigits then .ok (ofDigits digits) else .error (.tooLong digits.length)

/-- The digits of a non-empty run of ASCII digits. -/
def plainDigits? (text : List Char) : Option (List Nat) :=
  if text.isEmpty then none else text.mapM asciiDigit?

/-- The digits of a number whose digits may be of any script, with single
underscores between them. -/
def groupedDigits? : List Char → Option (List Nat)
  | [] => none
  | [c] => (decimalDigit? c).map ([·])
  | c :: '_' :: rest => do
      let digit ← decimalDigit? c
      let digits ← groupedDigits? rest
      return digit :: digits
  | c :: rest => do
      let digit ← decimalDigit? c
      let digits ← groupedDigits? rest
      return digit :: digits

/-- White space that may stand around a number: all of it but the four ASCII separators. -/
def isPadding (c : Char) : Bool := isBlank c && !(0x1c ≤ c.toNat && c.toNat ≤ 0x1f)

/-- The characters a number is written with after its sign: digits of any script and underscores. -/
def isNumeralChar (c : Char) : Bool := c = '_' || (decimalDigit? c).isSome

/-- A plus or minus sign in front, and what follows it. -/
def splitSign : List Char → Bool × List Char
  | '-' :: rest => (true, rest)
  | '+' :: rest => (false, rest)
  | text => (false, text)

/-- The strict reader: a run of ASCII digits. -/
def readNatural (text : String) : Except NumeralFault Nat :=
  match plainDigits? text.toList with
  | none => .error .malformed
  | some digits => boundedOfDigits digits

/-- A number without its sign: the longest run of digits and underscores.  Only
white space may follow it, but a run with too many digits is refused for that
whatever follows. -/
def readMagnitude (text : List Char) : Except NumeralFault Nat :=
  match groupedDigits? (text.takeWhile isNumeralChar) with
  | none => .error .malformed
  | some digits => do
      let n ← boundedOfDigits digits
      if (text.dropWhile isNumeralChar).all isPadding then return n else .error .malformed

/-- The lenient reader: a signed number with white space around it. -/
def readInteger (text : String) : Except NumeralFault Int := do
  let (negative, magnitude) := splitSign (text.toList.dropWhile isPadding)
  let n ← readMagnitude magnitude
  return if negative then -(n : Int) else n

end RelCalc.Text
