/-
  `Text.CharSet`: classes of characters given as ranges of code points.

  A class is a list of closed ranges.  Membership looks the code point of a
  character up in the ranges, so a class is plain data and every question about
  it is decidable.
-/

set_option autoImplicit false

namespace RelCalc.Text

/-- A class of characters: the closed ranges of code points that make it up. -/
abbrev CharSet : Type := List (Nat × Nat)

namespace CharSet

/-- A character belongs to a class when one of its ranges covers the character. -/
def contains (set : CharSet) (c : Char) : Bool :=
  set.any fun range => range.1 ≤ c.toNat && c.toNat ≤ range.2

/-- Membership names the range that covers the character. -/
theorem contains_iff {set : CharSet} {c : Char} :
    set.contains c = true ↔ ∃ range ∈ set, range.1 ≤ c.toNat ∧ c.toNat ≤ range.2 := by
  simp [contains]

end CharSet

end RelCalc.Text
