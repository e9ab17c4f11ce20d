/-
  `Proofs.FinSet.Comparison`: the comparisons of sets agree with each other and with the algebra.

  Each comparison is a statement about members.  Inclusion is looked up one element after the
  other, and it is what the union, the intersection and the difference of two sets show.  Equality
  looks at one inclusion and at the sizes: the other inclusion follows because no element is
  counted twice.  Sets that are kept in two parts are compared by both parts, in step with the
  sets that are lists alone.
-/
import RelCalc.Proofs.FinSet.Construction

set_option autoImplicit false

namespace RelCalc

namespace FinSet

variable {α : Type} {s t u : FinSet α}

/-! ## Members -/

theorem isEmpty_iff_members : s.isEmpty = true ↔ s.members = ∅ := by
  rw [isEmpty, List.isEmpty_iff_length_eq_zero, ← Finset.card_eq_zero]
  rfl

variable [DecidableEq α]

theorem isSubset_iff_members : s.isSubset t = true ↔ s.members ⊆ t.members := isSubset_iff

/-- Sets of one size of which the first is a subset of the second have the same members. -/
theorem isEqual_iff_members : s.isEqual t = true ↔ s.members = t.members := by
  rw [isEqual, Bool.and_eq_true, decide_eq_true_eq, isSubset_iff_members, ← card_members,
    ← card_members]
  constructor
  · rintro ⟨size, inside⟩
    apply Finset.eq_of_subset_of_card_le inside
    exact Nat.le_of_eq size.symm
  · intro same
    exact ⟨congrArg Finset.card same, same.subset⟩

theorem isProperSubset_iff_members : s.isProperSubset t = true ↔ s.members ⊂ t.members := by
  rw [isProperSubset, Bool.and_eq_true, Bool.not_eq_true', ← Bool.not_eq_true,
    isSubset_iff_members, isEqual_iff_members]
  exact Finset.ssubset_iff_subset_ne.symm

/-! ## Equality -/

/-- Equality by sizes and one inclusion is sameness up to order. -/
theorem isEqual_iff_same : s.isEqual t = true ↔ s.same t = true := by
  rw [isEqual_iff_members, same_iff_members_eq]

theorem same_iff_isSubset_both :
    s.same t = true ↔ s.isSubset t = true ∧ t.isSubset s = true := by
  rw [same_iff_members_eq, isSubset_iff_members, isSubset_iff_members]
  exact Finset.Subset.antisymm_iff

/-! ## Inclusion in the algebra -/

theorem isSubset_iff_union_same : s.isSubset t = true ↔ (s ∪ t).same t = true := by
  rw [isSubset_iff_members, same_iff_members_eq, members_union]
  exact Finset.union_eq_right.symm

theorem isSubset_iff_inter_same : s.isSubset t = true ↔ (s ∩ t).same s = true := by
  rw [isSubset_iff_members, same_iff_members_eq, members_inter]
  exact Finset.inter_eq_left.symm

theorem isSubset_iff_isEmpty_sdiff : s.isSubset t = true ↔ (s \ t).isEmpty = true := by
  rw [isSubset_iff_members, isEmpty_iff_members, members_sdiff]
  exact Finset.sdiff_eq_empty_iff_subset.symm

/-! ## Proper inclusion -/

/-- A subset is either equal or proper, and never both; other sets are neither. -/
theorem isEqual_xor_isProperSubset (s t : FinSet α) :
    (s.isEqual t ^^ s.isProperSubset t) = s.isSubset t := by
  have inside : s.isEqual t = true → s.isSubset t = true := by
    intro equal
    rw [isSubset_iff_members, isEqual_iff_members.mp equal]
  rw [isProperSubset]
  cases equal : s.isEqual t with
  | true => simp [inside equal]
  | false => simp

theorem isProperSubset_self (s : FinSet α) : s.isProperSubset s = false := by
  rw [← Bool.not_eq_true, isProperSubset_iff_members]
  exact ssubset_irrefl s.members

theorem isProperSubset_trans (first : s.isProperSubset t = true)
    (second : t.isProperSubset u = true) : s.isProperSubset u = true := by
  rw [isProperSubset_iff_members] at first second ⊢
  exact first.trans second

theorem size_lt_of_isProperSubset (proper : s.isProperSubset t = true) : s.size < t.size := by
  rw [← card_members, ← card_members]
  exact Finset.card_lt_card (isProperSubset_iff_members.mp proper)

end FinSet

/-! ## Sets in two parts -/

namespace IndexedSet

variable {α : Type} {k l : IndexedSet α} {s t : FinSet α}

/-- The number of elements in the list. -/
def size (s : IndexedSet α) : Nat := s.elements.length

/-- There is no element in the list. -/
def isEmpty (s : IndexedSet α) : Bool := s.size = 0

theorem Represents.size_eq (h : k.Represents s) : k.size = s.size :=
  congrArg List.length h.elements_eq

theorem Represents.isEmpty_eq (h : k.Represents s) : k.isEmpty = s.isEmpty := by
  rw [isEmpty, h.size_eq, Bool.eq_iff_iff, decide_eq_true_eq, FinSet.isEmpty,
    List.isEmpty_iff_length_eq_zero]
  rfl

variable [DecidableEq α]

/-- The sets have the same index. -/
def same (s t : IndexedSet α) : Bool := s.index = t.index

/-- Every element in the list of the first set is found in the index of the second. -/
def isSubset (s t : IndexedSet α) : Bool := s.elements.all fun a => a ∈ t

/-- The lists are equally long and the first set is a subset of the second. -/
def isEqual (s t : IndexedSet α) : Bool := s.size = t.size && s.isSubset t

/-- A subset that is not equal. -/
def isProperSubset (s t : IndexedSet α) : Bool := s.isSubset t && !s.isEqual t

theorem Represents.same_eq (h : k.Represents s) (h' : l.Represents t) : k.same l = s.same t := by
  rw [same, h.index_eq, h'.index_eq, Bool.eq_iff_iff, decide_eq_true_eq,
    FinSet.same_iff_members_eq]

theorem Represents.isSubset_eq (h : k.Represents s) (h' : l.Represents t) :
    k.isSubset l = s.isSubset t := by
  rw [isSubset, h.elements_eq, FinSet.isSubset]
  simp only [h'.mem_iff]

theorem Represents.isEqual_eq (h : k.Represents s) (h' : l.Represents t) :
    k.isEqual l = s.isEqual t := by
  rw [isEqual, h.size_eq, h'.size_eq, h.isSubset_eq h', FinSet.isEqual]

theorem Represents.isProperSubset_eq (h : k.Represents s) (h' : l.Represents t) :
    k.isProperSubset l = s.isProperSubset t := by
  rw [isProperSubset, h.isSubset_eq h', h.isEqual_eq h', FinSet.isProperSubset]

end IndexedSet

/-! ## The comparisons together -/

/-- **The comparisons agree with each other and with the algebra.**  However two sets are made, in
two parts they are compared as they are as lists alone.  Equality by sizes and one inclusion is
sameness up to order, which is inclusion both ways; inclusion shows in the union, in the
intersection and in the difference; a subset is either equal or proper; and proper inclusion is a
strict order along which sizes grow. -/
theorem comparisons_agree :
    (∀ a b : Construction,
      a.indexed.size = a.listed.size ∧ a.indexed.isEmpty = a.listed.isEmpty ∧
      a.indexed.same b.indexed = a.listed.same b.listed ∧
      a.indexed.isSubset b.indexed = a.listed.isSubset b.listed ∧
      a.indexed.isEqual b.indexed = a.listed.isEqual b.listed ∧
      a.indexed.isProperSubset b.indexed = a.listed.isProperSubset b.listed) ∧
    ∀ s t u : FinSet Element,
      ((s.isEqual t = true ↔ s.same t = true) ∧
        (s.same t = true ↔ s.isSubset t = true ∧ t.isSubset s = true)) ∧
      ((s.isSubset t = true ↔ (s ∪ t).same t = true) ∧
        (s.isSubset t = true ↔ (s ∩ t).same s = true) ∧
        (s.isSubset t = true ↔ (s \ t).isEmpty = true)) ∧
      (s.isEqual t ^^ s.isProperSubset t) = s.isSubset t ∧
      s.isProperSubset s = false ∧
      (s.isProperSubset t = true → t.isProperSubset u = true → s.isProperSubset u = true) ∧
      (s.isProperSubset t = true → s.size < t.size) := by
  refine ⟨fun a b => ?_, fun s t u => ?_⟩
  · have first := a.represents
    have second := b.represents
    exact ⟨first.size_eq, first.isEmpty_eq, first.same_eq second, first.isSubset_eq second,
      first.isEqual_eq second, first.isProperSubset_eq second⟩
  · exact ⟨⟨FinSet.isEqual_iff_same, FinSet.same_iff_isSubset_both⟩,
      ⟨FinSet.isSubset_iff_union_same, FinSet.isSubset_iff_inter_same,
        FinSet.isSubset_iff_isEmpty_sdiff⟩,
      FinSet.isEqual_xor_isProperSubset s t, FinSet.isProperSubset_self s,
      FinSet.isProperSubset_trans, FinSet.size_lt_of_isProperSubset⟩

/-- Three sets made in different ways, each a proper subset of the next, and a fourth that has the
elements of the third in another order. -/
theorem comparisons_agree_chain :
    let one : Construction := .add (.ofList ["a"]) "a"
    let two : Construction := .union (.ofList ["c"]) one []
    let three : Construction := .add (.ofList ["b", "c", "b"]) "a"
    let other : Construction := .union two (.diff three one) []
    one.listed.isProperSubset two.listed = true ∧ two.listed.isProperSubset three.listed = true ∧
      one.listed.isProperSubset three.listed = true ∧ one.listed.size < two.listed.size ∧
        three.indexed.isEqual other.indexed = true ∧ three.indexed.same other.indexed = true ∧
          three.indexed.isProperSubset other.indexed = false := by
  intro one two three other
  have first : one.listed.isProperSubset two.listed = true := by decide +kernel
  have second : two.listed.isProperSubset three.listed = true := by decide +kernel
  have equal : three.listed.isEqual other.listed = true := by decide +kernel
  obtain ⟨inStep, laws⟩ := comparisons_agree
  obtain ⟨-, -, same, -, isEqual, isProperSubset⟩ := inStep three other
  obtain ⟨-, -, -, -, trans, size⟩ := laws one.listed two.listed three.listed
  obtain ⟨⟨sameAs, -⟩, -⟩ := laws three.listed other.listed ∅
  refine ⟨first, second, trans first second, size first, isEqual.trans equal,
    same.trans (sameAs.mp equal), isProperSubset.trans ?_⟩
  rw [FinSet.isProperSubset, equal, Bool.not_true, Bool.and_false]

end RelCalc
