/-
  `Text.Blank`: white space, and the characters that end a line.

  Words of a program are separated by blanks and tabs; every other white-space
  character is refused outside comments.  The classes here are those of the
  Unicode standard, together with the four information separators of ASCII.
-/
import RelCalc.Text.CharSet

set_option autoImplicit false

namespace RelCalc.Text

/-- White space: the Unicode white-space characters and the ASCII separators
U+001C to U+001F. -/
def whiteSpace : CharSet :=
  [(0x09, 0x0d), (0x1c, 0x20), (0x85, 0x85), (0xa0, 0xa0), (0x1680, 0x1680),
   (0x2000, 0x200a), (0x2028, 0x2029), (0x202f, 0x202f), (0x205f, 0x205f), (0x3000, 0x3000)]

/-- The characters at which a text is cut into lines when one line of it is quoted. -/
def lineBoundaries : CharSet :=
  [(0x0a, 0x0d), (0x1c, 0x1e), (0x85, 0x85), (0x2028, 0x2029)]

/-- White space of any kind; a word holds none. -/
def isBlank (c : Char) : Bool := whiteSpace.contains c

/-- The two blanks that separate words inside a line. -/
def isGap (c : Char) : Bool := c = ' ' || c = '\t'

/-- A character that ends a line of quoted text. -/
def isLineBoundary (c : Char) : Bool := lineBoundaries.contains c

/-- A gap between words is white space. -/
theorem isBlank_of_isGap {c : Char} (h : isGap c = true) : isBlank c = true := by
  simp only [isGap, Bool.or_eq_true, decide_eq_true_eq] at h
  rcases h with rfl | rfl <;> decide

/-- What is not white space ends no line and separates no words. -/
theorem of_not_isBlank {c : Char} (h : isBlank c = false) :
    c ≠ '\n' ∧ c ≠ '\r' ∧ isGap c = false := by
  refine ⟨?_, ?_, ?_⟩
  · rintro rfl
    exact absurd h (by decide)
  · rintro rfl
    exact absurd h (by decide)
  · rw [Bool.eq_false_iff]
    intro gap
    rw [isBlank_of_isGap gap] at h
    cases h

end RelCalc.Text
