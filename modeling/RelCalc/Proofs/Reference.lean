/-
  `Proofs.Reference`: operands refer to lines.

  Lines are numbered from one, and an operand names a line by its number.  What an
  operand selects is the same question for the kinds of lines, for their values
  and for the commands on them, so it is answered once, for any list that has one
  entry for each line.
-/
import RelCalc.Proofs.Numeral

set_option autoImplicit false

namespace RelCalc

variable {α β : Type}

/-- The entry of a line, the lines numbered from one. -/
def atLine? (entries : List α) : Nat → Option α
  | 0 => none
  | index + 1 => entries[index]?

/-- The entry of the line that an operand names. -/
def referent? (entries : List α) (token : String) : Option α :=
  match Text.readNatural token with
  | .ok index => atLine? entries index
  | .error _ => none

/-! ## One more line -/

/-- The entries of a list with one more at the end are the old ones and the new one. -/
theorem getElem?_concat_eq_some_iff {entries : List α} {last entry : α} {i : Nat} :
    (entries ++ [last])[i]? = some entry ↔
      entries[i]? = some entry ∨ i = entries.length ∧ last = entry := by
  rcases Nat.lt_trichotomy i entries.length with before | rfl | after
  · have other : i ≠ entries.length := by omega
    simp [List.getElem?_append_left before, other]
  · simp
  · have other : i ≠ entries.length := by omega
    have absent : entries[i]? = none := List.getElem?_eq_none (by omega)
    have beyond : (entries ++ [last])[i]? = none :=
      List.getElem?_eq_none (by rw [List.length_append, List.length_singleton]; omega)
    simp [absent, beyond, other]

/-! ## Entries of lines -/

/-- Only positive numbers are numbers of lines. -/
theorem atLine?_eq_some_iff {entries : List α} {index : Nat} {entry : α} :
    atLine? entries index = some entry ↔ 1 ≤ index ∧ entries[index - 1]? = some entry := by
  cases index with
  | zero => simp [atLine?]
  | succ index => simp [atLine?]

/-- The line of an entry is one of the lines. -/
theorem le_length_of_atLine? {entries : List α} {index : Nat} {entry : α}
    (h : atLine? entries index = some entry) : index ≤ entries.length := by
  obtain ⟨positive, found⟩ := atLine?_eq_some_iff.mp h
  obtain ⟨bound, -⟩ := List.getElem?_eq_some_iff.mp found
  omega

/-- A line of the mapped list has the mapped entry. -/
theorem atLine?_map (f : α → β) (entries : List α) (index : Nat) :
    atLine? (entries.map f) index = (atLine? entries index).map f := by
  cases index with
  | zero => rfl
  | succ index => simp [atLine?]

/-- More lines at the end leave the entries of the lines before them. -/
theorem atLine?_append_of_some {entries : List α} {index : Nat} {entry : α} (more : List α)
    (h : atLine? entries index = some entry) :
    atLine? (entries ++ more) index = some entry := by
  have bound := le_length_of_atLine? h
  obtain ⟨positive, found⟩ := atLine?_eq_some_iff.mp h
  rw [atLine?_eq_some_iff, List.getElem?_append_left (by omega)]
  exact ⟨positive, found⟩

/-! ## Referents of operands -/

/-- An operand refers to an entry by the number that it is read as. -/
theorem referent?_eq_some_iff {entries : List α} {token : String} {entry : α} :
    referent? entries token = some entry ↔
      ∃ index, Text.readNatural token = .ok index ∧ atLine? entries index = some entry := by
  unfold referent?
  split
  · rename_i index read
    simp [read]
  · rename_i fault read
    simp [read]

/-- The referent among mapped entries is the mapped referent. -/
theorem referent?_map (f : α → β) (entries : List α) (token : String) :
    referent? (entries.map f) token = (referent? entries token).map f := by
  unfold referent?
  split
  · exact atLine?_map f entries _
  · rfl

/-- More lines at the end leave the referents among the lines before them. -/
theorem referent?_append_of_some {entries : List α} {token : String} {entry : α} (more : List α)
    (h : referent? entries token = some entry) :
    referent? (entries ++ more) token = some entry := by
  obtain ⟨index, read, found⟩ := referent?_eq_some_iff.mp h
  exact referent?_eq_some_iff.mpr ⟨index, read, atLine?_append_of_some more found⟩

end RelCalc
