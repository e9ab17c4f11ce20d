/-
  `Proofs.Renaming.Sets`: sets whose elements are renamed and moved about.

  A renaming is an injective map of elements.  A set corresponds to another when the
  other holds the images of its elements, in the same order or in any order; both
  notions are kept by whatever is done with sets, for the same reasons, so there is one
  lemma for both.  No test on sets can tell corresponding sets apart, and corresponding
  operands give corresponding results.
-/
import Mathlib.Data.List.Nodup
import Mathlib.Logic.Function.Basic
import RelCalc.Proofs.FinSet.Order

set_option autoImplicit false

namespace RelCalc

/-! ## Arrangements -/

/-- What a correspondence of lists says about order. -/
inductive Arrangement where
  /-- The order is the same. -/
  | fixed
  /-- The order may be any. -/
  | free
  deriving DecidableEq, Repr, Inhabited

namespace Arrangement

variable {α : Type} {order : Arrangement} {entries others more others' : List α}

/-- Two lists have the same entries, in an order that is allowed. -/
def Similar (order : Arrangement) (entries others : List α) : Prop :=
  match order with
  | fixed => others = entries
  | free => others.Perm entries

theorem Similar.perm (h : order.Similar entries others) : others.Perm entries := by
  cases order with
  | fixed =>
    obtain rfl : others = entries := h
    exact List.Perm.refl others
  | free => exact h

theorem Similar.append (h : order.Similar entries others) (h' : order.Similar more others') :
    order.Similar (entries ++ more) (others ++ others') := by
  cases order with
  | fixed =>
    obtain rfl : others = entries := h
    obtain rfl : others' = more := h'
    rfl
  | free => exact List.Perm.append h h'

theorem Similar.filter (h : order.Similar entries others) (test : α → Bool) :
    order.Similar (entries.filter test) (others.filter test) := by
  cases order with
  | fixed =>
    obtain rfl : others = entries := h
    rfl
  | free => exact List.Perm.filter test h

end Arrangement

/-! ## Corresponding sets -/

namespace FinSet

variable {α β : Type}

/-- A set holds the images of the elements of another, in an order that is allowed. -/
def Renamed (order : Arrangement) (f : α → β) (s : FinSet α) (t : FinSet β) : Prop :=
  order.Similar (s.toList.map f) t.toList

section Elements

variable {order : Arrangement} {f : α → β} {s : FinSet α} {t : FinSet β}

/-- Every element of the image is the image of an element. -/
theorem Renamed.mem_iff_exists (h : s.Renamed order f t) {b : β} :
    b ∈ t ↔ ∃ a ∈ s, f a = b := by
  rw [mem_def, h.perm.mem_iff, List.mem_map]
  exact Iff.rfl

theorem Renamed.mem_iff (h : s.Renamed order f t) (inj : Function.Injective f) {a : α} :
    f a ∈ t ↔ a ∈ s := by
  rw [h.mem_iff_exists]
  constructor
  · rintro ⟨b, inside, same⟩
    exact inj same ▸ inside
  · exact fun inside => ⟨a, inside, rfl⟩

theorem Renamed.forall_mem_iff (h : s.Renamed order f t) {P : β → Prop} :
    (∀ b ∈ t, P b) ↔ ∀ a ∈ s, P (f a) := by
  simp only [h.mem_iff_exists, forall_exists_index, and_imp, forall_apply_eq_imp_iff₂]

theorem Renamed.exists_mem_iff (h : s.Renamed order f t) {P : β → Prop} :
    (∃ b ∈ t, P b) ↔ ∃ a ∈ s, P (f a) := by
  simp only [h.mem_iff_exists, exists_exists_and_eq_and]

theorem Renamed.size_eq (h : s.Renamed order f t) : t.size = s.size := by
  rw [size, h.perm.length_eq, List.length_map, size]

theorem Renamed.isEmpty_eq (h : s.Renamed order f t) : t.isEmpty = s.isEmpty := by
  have empty {γ : Type} (u : FinSet γ) : u.isEmpty = true ↔ u.size = 0 := by
    rw [isEmpty, List.isEmpty_iff_length_eq_zero, size]
  rw [Bool.eq_iff_iff, empty, empty, h.size_eq]

/-- Tests that agree on corresponding elements leave corresponding sets. -/
theorem Renamed.filter (h : s.Renamed order f t) {test : α → Bool} {test' : β → Bool}
    (agree : ∀ a ∈ s, test' (f a) = test a) :
    (s.filter test).Renamed order f (t.filter test') := by
  have image : (s.toList.filter test).map f = (s.toList.map f).filter test' := by
    rw [List.filter_map]
    exact congrArg (List.map f) (List.filter_congr fun a inside => (agree a inside).symm)
  unfold Renamed
  rw [FinSet.filter, image]
  exact Arrangement.Similar.filter h test'

end Elements

/-! ## The algebra of sets -/

section Algebra

variable [DecidableEq α] [DecidableEq β]

variable {order : Arrangement} {f : α → β} {s u : FinSet α} {t v : FinSet β}

theorem Renamed.decide_mem_eq (h : s.Renamed order f t) (inj : Function.Injective f) (a : α) :
    decide (f a ∈ t) = decide (a ∈ s) :=
  decide_eq_decide.mpr (h.mem_iff inj)

theorem Renamed.decide_not_mem_eq (h : s.Renamed order f t) (inj : Function.Injective f) (a : α) :
    decide (f a ∉ t) = decide (a ∉ s) :=
  decide_eq_decide.mpr (not_congr (h.mem_iff inj))

theorem Renamed.inter (h : s.Renamed order f t) (h' : u.Renamed order f v)
    (inj : Function.Injective f) : (s ∩ u).Renamed order f (t ∩ v) :=
  h.filter fun a _ => h'.decide_mem_eq inj a

theorem Renamed.sdiff (h : s.Renamed order f t) (h' : u.Renamed order f v)
    (inj : Function.Injective f) : (s \ u).Renamed order f (t \ v) :=
  h.filter fun a _ => h'.decide_not_mem_eq inj a

theorem Renamed.union (h : s.Renamed order f t) (h' : u.Renamed order f v)
    (inj : Function.Injective f) : (s ∪ u).Renamed order f (t ∪ v) := by
  have behind : (u \ s).Renamed order f (v \ t) := h'.sdiff h inj
  unfold Renamed
  rw [toList_union, toList_union, List.map_append]
  exact Arrangement.Similar.append h behind

theorem Renamed.isSubset_eq (h : s.Renamed order f t) (h' : u.Renamed order f v)
    (inj : Function.Injective f) : t.isSubset v = s.isSubset u := by
  rw [Bool.eq_iff_iff, isSubset_iff, isSubset_iff, h.forall_mem_iff]
  simp only [h'.mem_iff inj]

theorem Renamed.isEqual_eq (h : s.Renamed order f t) (h' : u.Renamed order f v)
    (inj : Function.Injective f) : t.isEqual v = s.isEqual u := by
  rw [isEqual, isEqual, h.size_eq, h'.size_eq, h.isSubset_eq h' inj]

theorem Renamed.isProperSubset_eq (h : s.Renamed order f t) (h' : u.Renamed order f v)
    (inj : Function.Injective f) : t.isProperSubset v = s.isProperSubset u := by
  rw [isProperSubset, isProperSubset, h.isSubset_eq h' inj, h.isEqual_eq h' inj]

end Algebra

end FinSet

end RelCalc
