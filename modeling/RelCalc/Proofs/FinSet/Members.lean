/-
  `Proofs.FinSet.Members`: the elements of a set, with and without their order.

  Without its order a set is a `Finset`.  Two sets are the same up to order exactly when
  they have the same members, the operations on sets are those on `Finset`s, and the size
  is the cardinality; so a law that does not mention the order is a law of `Finset`s, and
  sizes are compared along maps.  The order comes in where sets are cut out of one set:
  those that keep its order are equal as soon as they hold the same elements.
-/
import Mathlib.Data.Finset.Card
import RelCalc.FinSet.Algebra

set_option autoImplicit false

namespace RelCalc.FinSet

variable {α : Type}

/-! ## Without the order -/

/-- The elements of a set, without their order. -/
def members (s : FinSet α) : Finset α := ⟨s.toList, s.nodup⟩

@[simp] theorem mem_members {s : FinSet α} {a : α} : a ∈ s.members ↔ a ∈ s := Iff.rfl

@[simp] theorem card_members (s : FinSet α) : s.members.card = s.size := rfl

section Operations

variable [DecidableEq α]

/-- Sets are the same up to order when they have the same members. -/
theorem same_iff_members_eq {s t : FinSet α} : s.same t = true ↔ s.members = t.members := by
  rw [same_iff, Finset.ext_iff]
  exact Iff.rfl

theorem size_eq_of_same {s t : FinSet α} (same : s.same t = true) : s.size = t.size :=
  congrArg Finset.card (same_iff_members_eq.mp same)

@[simp] theorem members_insert (s : FinSet α) (a : α) :
    (s.insert a).members = Insert.insert a s.members := by
  ext x
  simp [or_comm]

@[simp] theorem members_union (s t : FinSet α) : (s ∪ t).members = s.members ∪ t.members := by
  ext x
  simp

@[simp] theorem members_inter (s t : FinSet α) : (s ∩ t).members = s.members ∩ t.members := by
  ext x
  simp

@[simp] theorem members_sdiff (s t : FinSet α) : (s \ t).members = s.members \ t.members := by
  ext x
  simp

@[simp] theorem members_compl (ground s : FinSet α) :
    (compl ground s).members = ground.members \ s.members := members_sdiff ground s

end Operations

/-! ## Sizes along a map -/

section Maps

variable {β : Type} {s : FinSet α} {t : FinSet β} {f : α → β}

/-- Different elements of a set have different images. -/
def DistinctOn (s : FinSet α) (f : α → β) : Prop := ∀ x ∈ s, ∀ y ∈ s, x ≠ y → f x ≠ f y

theorem distinctOn_iff_injOn : s.DistinctOn f ↔ Set.InjOn f s.members := by
  constructor
  · intro distinct x hx y hy same
    by_contra different
    exact distinct x hx y hy different same
  · intro inj x hx y hy different same
    exact different (inj hx hy same)

/-- A set with different images in another has at most as many elements. -/
theorem size_le_of_distinctOn (distinct : s.DistinctOn f) (into : ∀ x ∈ s, f x ∈ t) :
    s.size ≤ t.size := by
  rw [← card_members, ← card_members]
  exact Finset.card_le_card_of_injOn f into (distinctOn_iff_injOn.mp distinct)

/-- A set whose images are all elements of another has at least as many. -/
theorem size_le_of_onto (onto : ∀ b ∈ t, ∃ x ∈ s, f x = b) : t.size ≤ s.size := by
  rw [← card_members, ← card_members]
  exact Finset.card_le_card_of_surjOn f onto

/-- A set has as many elements as images exactly when different elements have different images. -/
theorem distinctOn_iff_size_eq [DecidableEq β] (images : ∀ b, b ∈ t ↔ ∃ x ∈ s, f x = b) :
    s.DistinctOn f ↔ s.size = t.size := by
  have image : t.members = s.members.image f := by
    ext b
    simp only [mem_members, images, Finset.mem_image]
  rw [distinctOn_iff_injOn, ← Finset.card_image_iff, ← image, card_members, card_members]
  exact eq_comm

end Maps

/-! ## In the order of another set -/

section Order

variable {s t u : FinSet α}

/-- A set keeps the order of another when it lists some of its elements as they come there. -/
def KeepsOrderOf (s t : FinSet α) : Prop := s.toList.Sublist t.toList

theorem KeepsOrderOf.trans (h : s.KeepsOrderOf t) (h' : t.KeepsOrderOf u) : s.KeepsOrderOf u :=
  List.Sublist.trans h h'

theorem keepsOrderOf_filter (s : FinSet α) (test : α → Bool) : (s.filter test).KeepsOrderOf s :=
  List.filter_sublist

variable [DecidableEq α]

theorem keepsOrderOf_inter (s t : FinSet α) : (s ∩ t).KeepsOrderOf s := keepsOrderOf_filter s _

theorem keepsOrderOf_sdiff (s t : FinSet α) : (s \ t).KeepsOrderOf s := keepsOrderOf_filter s _

theorem keepsOrderOf_compl (ground s : FinSet α) : (compl ground s).KeepsOrderOf ground :=
  keepsOrderOf_sdiff ground s

/-- What keeps the order of a set is the list of that set without the elements left out. -/
theorem KeepsOrderOf.toList_eq_filter (h : s.KeepsOrderOf u) :
    s.toList = u.toList.filter fun a => a ∈ s := by
  have among : s.toList.filter (fun a => a ∈ s) = s.toList :=
    List.filter_eq_self.mpr fun a inside => decide_eq_true inside
  have shorter : s.toList.Sublist (u.toList.filter fun a => a ∈ s) := among ▸ h.filter _
  have inside : u.toList.filter (fun a => a ∈ s) ⊆ s.toList := fun a kept =>
    of_decide_eq_true (List.mem_filter.mp kept).2
  exact shorter.eq_of_length_le (List.subperm_of_subset (u.nodup.filter _) inside).length_le

/-- Sets that keep the order of one set are equal when they hold the same elements. -/
theorem KeepsOrderOf.eq_of_mem_iff (h : s.KeepsOrderOf u) (h' : t.KeepsOrderOf u)
    (same : ∀ a, a ∈ s ↔ a ∈ t) : s = t := by
  apply ext
  rw [h.toList_eq_filter, h'.toList_eq_filter]
  simp only [same]

end Order

end RelCalc.FinSet
