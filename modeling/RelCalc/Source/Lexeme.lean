/-
  `Source.Lexeme`: program text cut into words and line ends.

  The scanner goes through the text once, character by character, and keeps the
  line and the column it stands at.  Blanks and tabs separate words.  A `#` where
  a word could start opens a comment, which lasts until the line ends; inside a
  word it is a letter like any other.  A carriage return is accepted right before
  a newline, and inside a comment.  Any other white space is misplaced, and the
  first misplaced character ends the scan.
-/
import RelCalc.Fault
import RelCalc.Text.Blank

set_option autoImplicit false

namespace RelCalc.Source

/-- A piece of program text that matters: a word on its line, or the end of a line. -/
inductive Lexeme where
  | word (line : Nat) (letters : List Char)
  | lineEnd
  deriving DecidableEq, Repr, Inhabited

/-- Where in a line the scanner stands. -/
inductive Mode where
  /-- Between words. -/
  | gap
  /-- In a word, with the letters so far, the last one first. -/
  | word (letters : List Char)
  /-- In a comment. -/
  | comment
  deriving DecidableEq, Repr, Inhabited

/-- The word that ends where a mode ends, if the mode is that of a word. -/
def Mode.close (line : Nat) : Mode → List Lexeme
  | .word letters => [.word line letters.reverse]
  | _ => []

/-- Scan a text from a given line and column on. -/
def scan (line column : Nat) : Mode → List Char → Except Fault (List Lexeme)
  | mode, [] => .ok (mode.close line)
  | mode, '\n' :: rest => do
      let later ← scan (line + 1) 1 .gap rest
      return mode.close line ++ .lineEnd :: later
  | .comment, _ :: rest => scan line (column + 1) .comment rest
  | mode, c :: rest =>
      if Text.isGap c ∨ (c = '\r' ∧ rest.head? = some '\n') then do
        let later ← scan line (column + 1) .gap rest
        return mode.close line ++ later
      else if Text.isBlank c then
        .error (.diagnostic ⟨.misplaced c line column, some line, none⟩)
      else
        match mode with
        | .word letters => scan line (column + 1) (.word (c :: letters)) rest
        | _ =>
            if c = '#' then scan line (column + 1) .comment rest
            else scan line (column + 1) (.word [c]) rest

/-- The text, with a newline at its end if there is none. -/
def terminated (text : List Char) : List Char :=
  if text.getLast? = some '\n' then text else text ++ ['\n']

/-- The lexemes of a whole text. -/
def lexemes (text : List Char) : Except Fault (List Lexeme) := scan 1 1 .gap (terminated text)

/-! ## One step of the scanner at a time -/

/-- A newline closes the word before it and starts a line. -/
theorem scan_newline (line column : Nat) (mode : Mode) (rest : List Char) :
    scan line column mode ('\n' :: rest) =
      (scan (line + 1) 1 .gap rest).map fun later => mode.close line ++ .lineEnd :: later := by
  rw [scan.eq_def]
  rfl

/-- A comment swallows everything but a newline. -/
theorem scan_comment {line column : Nat} {c : Char} {rest : List Char} (h : c ≠ '\n') :
    scan line column .comment (c :: rest) = scan line (column + 1) .comment rest := by
  rw [scan.eq_def]
  split <;> simp_all

/-- A gap closes the word before it. -/
theorem scan_gap {line column : Nat} {mode : Mode} {c : Char} {rest : List Char}
    (h : Text.isGap c = true) (outside : mode ≠ .comment) :
    scan line column mode (c :: rest) =
      (scan line (column + 1) .gap rest).map fun later => mode.close line ++ later := by
  have notNewline : c ≠ '\n' := by rintro rfl; simp [Text.isGap] at h
  rw [scan.eq_def]
  cases mode <;> simp_all <;> rfl

/-- A carriage return at the end of a line closes the word before it. -/
theorem scan_return {line column : Nat} {mode : Mode} {rest : List Char}
    (outside : mode ≠ .comment) : scan line column mode ('\r' :: '\n' :: rest) =
      (scan line (column + 1) .gap ('\n' :: rest)).map fun later => mode.close line ++ later := by
  rw [scan.eq_def]
  cases mode <;> simp_all <;> rfl

/-- Any other white space ends the scan. -/
theorem scan_misplaced {line column : Nat} {mode : Mode} {c : Char} {rest : List Char}
    (outside : mode ≠ .comment) (blank : Text.isBlank c = true) (notGap : Text.isGap c = false)
    (notNewline : c ≠ '\n') (notReturn : ¬ (c = '\r' ∧ rest.head? = some '\n')) :
    scan line column mode (c :: rest) =
      .error (.diagnostic ⟨.misplaced c line column, some line, none⟩) := by
  rw [scan.eq_def]
  cases mode <;> simp_all

/-- What is not white space belongs to the word it stands in. -/
theorem scan_in_word {line column : Nat} {letters : List Char} {c : Char} {rest : List Char}
    (h : Text.isBlank c = false) :
    scan line column (.word letters) (c :: rest) =
      scan line (column + 1) (.word (c :: letters)) rest := by
  obtain ⟨notNewline, notReturn, notGap⟩ := Text.of_not_isBlank h
  rw [scan.eq_def]
  simp_all

/-- A `#` between words opens a comment. -/
theorem scan_hash (line column : Nat) (rest : List Char) :
    scan line column .gap ('#' :: rest) = scan line (column + 1) .comment rest := by
  rw [scan.eq_def]
  simp [Text.isGap, show Text.isBlank '#' = false by decide]

/-- Anything else between words starts a word. -/
theorem scan_letter {line column : Nat} {c : Char} {rest : List Char}
    (h : Text.isBlank c = false) (notHash : c ≠ '#') :
    scan line column .gap (c :: rest) = scan line (column + 1) (.word [c]) rest := by
  obtain ⟨notNewline, notReturn, notGap⟩ := Text.of_not_isBlank h
  rw [scan.eq_def]
  simp_all

end RelCalc.Source
