/-
  `Text.Quoted`: text between quotation marks.

  A quoted text is readable on one line and unambiguous: the mark and the
  backslash are escaped, and so is every character that is not printable.  The
  mark is an apostrophe unless that would need an escape and a double quote
  would not.
-/
import RelCalc.Text.Printable
import RelCalc.Text.Words

set_option autoImplicit false

namespace RelCalc.Text

/-- The usual mark around quoted text. -/
def apostrophe : Char := '\x27'

/-- The mark for text that holds apostrophes and no double quotes. -/
def doubleQuote : Char := '\x22'

/-- The mark that goes around a text. -/
def quotationMark (text : List Char) : Char :=
  if apostrophe ∈ text ∧ doubleQuote ∉ text then doubleQuote else apostrophe

/-- One hexadecimal digit, in lower case. -/
def hexDigit (n : Nat) : Char :=
  if n < 10 then Char.ofNat (0x30 + n) else Char.ofNat (0x57 + n)

/-- The last `width` hexadecimal digits of a number. -/
def hexDigits : Nat → Nat → List Char
  | 0, _ => []
  | width + 1, n => hexDigits width (n / 16) ++ [hexDigit (n % 16)]

/-- The escape of a character that is not printable, by its code point: two digits, four or
eight. -/
def escapeCode (code : Nat) : List Char :=
  if code < 0x100 then '\\' :: 'x' :: hexDigits 2 code
  else if code < 0x10000 then '\\' :: 'u' :: hexDigits 4 code
  else '\\' :: 'U' :: hexDigits 8 code

/-- What stands for one character between two marks. -/
def quoteChar (mark c : Char) : List Char :=
  if c = mark ∨ c = '\\' then ['\\', c]
  else if c = '\t' then ['\\', 't']
  else if c = '\n' then ['\\', 'n']
  else if c = '\r' then ['\\', 'r']
  else if isPrintable c then [c]
  else escapeCode c.toNat

/-- The characters of a quoted text, its marks included. -/
def quoteChars (text : List Char) : List Char :=
  let mark := quotationMark text
  mark :: text.flatMap (quoteChar mark) ++ [mark]

/-- A text between quotation marks. -/
def quote (text : String) : String := String.ofList (quoteChars text.toList)

/-- A list of texts, each quoted, in square brackets. -/
def quoteList (texts : List String) : String :=
  "[" ++ joinWith ", " (texts.map quote) ++ "]"

/-- Two texts, each quoted, in round brackets. -/
def quotePair (pair : String × String) : String :=
  "(" ++ quote pair.1 ++ ", " ++ quote pair.2 ++ ")"

end RelCalc.Text
