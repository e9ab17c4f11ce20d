/-
  `FinSet.Algebra`: union, intersection, difference, complement, comparison.

  Every operation says which elements its result holds and in which order.  The
  first operand leads: its elements come first and in its order, and only a union
  adds others after them.  A complement is a difference from the ground set, so
  it follows the order of the ground set.
-/
import RelCalc.FinSet.Basic

set_option autoImplicit false

namespace RelCalc.FinSet

variable {α : Type} [DecidableEq α]

/-- The elements of the first set, then the new elements of the second. -/
def union (s t : FinSet α) : FinSet α := s.insertAll t.toList

/-- The elements of the first set that the second holds too. -/
def inter (s t : FinSet α) : FinSet α := s.filter fun a => a ∈ t

/-- The elements of the first set that the second does not hold. -/
def diff (s t : FinSet α) : FinSet α := s.filter fun a => a ∉ t

instance : Union (FinSet α) := ⟨union⟩

instance : Inter (FinSet α) := ⟨inter⟩

instance : SDiff (FinSet α) := ⟨diff⟩

/-- The elements of the ground set that a set does not hold. -/
def compl (ground s : FinSet α) : FinSet α := ground \ s

/-- The union of two sets or more, folded from the left. -/
def unions (s t : FinSet α) (others : List (FinSet α)) : FinSet α := others.foldl union (s ∪ t)

/-- The intersection of two sets or more, folded from the left. -/
def inters (s t : FinSet α) (others : List (FinSet α)) : FinSet α := others.foldl inter (s ∩ t)

/-- Every element of the first set is in the second. -/
def isSubset (s t : FinSet α) : Bool := s.toList.all fun a => a ∈ t

/-- The sets have equally many elements and the first is a subset of the second. -/
def isEqual (s t : FinSet α) : Bool := s.size = t.size && s.isSubset t

/-- A subset that is not equal. -/
def isProperSubset (s t : FinSet α) : Bool := s.isSubset t && !s.isEqual t

/-! ## Membership -/

@[simp] theorem mem_union {s t : FinSet α} {x : α} : x ∈ s ∪ t ↔ x ∈ s ∨ x ∈ t :=
  mem_insertAll

@[simp] theorem mem_inter {s t : FinSet α} {x : α} : x ∈ s ∩ t ↔ x ∈ s ∧ x ∈ t := by
  show x ∈ s.filter _ ↔ _
  simp

@[simp] theorem mem_sdiff {s t : FinSet α} {x : α} : x ∈ s \ t ↔ x ∈ s ∧ x ∉ t := by
  show x ∈ s.filter _ ↔ _
  simp

@[simp] theorem mem_compl {ground s : FinSet α} {x : α} :
    x ∈ compl ground s ↔ x ∈ ground ∧ x ∉ s := mem_sdiff

/-- The subset test says what its name says. -/
theorem isSubset_iff {s t : FinSet α} : s.isSubset t = true ↔ ∀ a ∈ s, a ∈ t := by
  simp [isSubset, mem_def]

end RelCalc.FinSet
