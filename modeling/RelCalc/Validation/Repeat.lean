/-
  `Validation.Repeat`: the first entry of a list that comes again.

  Declarations must not repeat an element, and a diagnostic names the earliest
  entry that has a second occurrence.
-/

set_option autoImplicit false

namespace RelCalc.Validation

variable {α : Type} [DecidableEq α]

/-- The first entry that occurs again further on. -/
def firstRepeated? : List α → Option α
  | [] => none
  | entry :: rest => if entry ∈ rest then some entry else firstRepeated? rest

/-- Nothing is repeated exactly when all entries are different. -/
theorem firstRepeated?_eq_none_iff {entries : List α} :
    firstRepeated? entries = none ↔ entries.Nodup := by
  induction entries with
  | nil => simp [firstRepeated?]
  | cons entry rest ih =>
    by_cases h : entry ∈ rest
    · simp [firstRepeated?, h]
    · simp [firstRepeated?, h, ih]

end RelCalc.Validation
