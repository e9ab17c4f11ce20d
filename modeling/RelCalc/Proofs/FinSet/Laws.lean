/-
  `Proofs.FinSet.Laws`: the algebra of sets is Boolean, and sizes add up.

  The laws of union, intersection and complement hold up to the order of elements: they
  are laws of the members.  Where both sides are cut out of the ground set in its order,
  they hold with the order.  The ground set need not contain the other sets; only a double
  complement looks at the part of a set that it does contain.
-/
import RelCalc.Proofs.FinSet.Members

set_option autoImplicit false

namespace RelCalc.FinSet

variable {α : Type} [DecidableEq α]

/-! ## Complements -/

/-- The complement of a union is the intersection of the complements, in the same order. -/
theorem compl_union (ground s t : FinSet α) :
    compl ground (s ∪ t) = compl ground s ∩ compl ground t := by
  have inOrder : (compl ground s ∩ compl ground t).KeepsOrderOf ground :=
    (keepsOrderOf_inter _ _).trans (keepsOrderOf_compl ground s)
  refine (keepsOrderOf_compl ground (s ∪ t)).eq_of_mem_iff inOrder fun a => ?_
  simp only [mem_compl, mem_inter, mem_union, not_or]
  exact and_and_left

/-- The complement of an intersection is the union of the complements, up to order. -/
theorem compl_inter_same (ground s t : FinSet α) :
    (compl ground (s ∩ t)).same (compl ground s ∪ compl ground t) = true := by
  rw [same_iff_members_eq]
  simp only [members_compl, members_inter, members_union]
  exact Finset.sdiff_inter_distrib_right _ _ _

/-- A double complement leaves what the set has of the ground set, in the order of the ground
set. -/
theorem compl_compl (ground s : FinSet α) : compl ground (compl ground s) = ground ∩ s := by
  refine (keepsOrderOf_compl _ _).eq_of_mem_iff (keepsOrderOf_inter ground s) fun a => ?_
  simp only [mem_compl, mem_inter, not_and, not_not]
  exact and_congr_right fun inside => ⟨fun h => h inside, fun h _ => h⟩

/-- A double complement in a ground set that contains the set is that set, up to order. -/
theorem compl_compl_same {ground s : FinSet α} (inside : ∀ a ∈ s, a ∈ ground) :
    (compl ground (compl ground s)).same s = true := by
  rw [compl_compl, same_iff_members_eq, members_inter]
  exact Finset.inter_eq_right.mpr inside

/-! ## Unions and intersections -/

theorem inter_union_same (s t u : FinSet α) : (s ∩ (t ∪ u)).same (s ∩ t ∪ s ∩ u) = true := by
  rw [same_iff_members_eq]
  simp only [members_inter, members_union]
  exact Finset.inter_union_distrib_left _ _ _

theorem union_inter_same (s t u : FinSet α) : (s ∪ t ∩ u).same ((s ∪ t) ∩ (s ∪ u)) = true := by
  rw [same_iff_members_eq]
  simp only [members_inter, members_union]
  exact Finset.union_inter_distrib_left _ _ _

theorem union_comm_same (s t : FinSet α) : (s ∪ t).same (t ∪ s) = true := by
  rw [same_iff_members_eq, members_union, members_union]
  exact Finset.union_comm _ _

theorem inter_comm_same (s t : FinSet α) : (s ∩ t).same (t ∩ s) = true := by
  rw [same_iff_members_eq, members_inter, members_inter]
  exact Finset.inter_comm _ _

theorem union_absorbs_inter (s t : FinSet α) : (s ∪ s ∩ t).same s = true := by
  rw [same_iff_members_eq, members_union, members_inter]
  exact sup_inf_self

theorem inter_absorbs_union (s t : FinSet α) : s.same (s ∩ (s ∪ t)) = true := by
  rw [same_iff_members_eq, members_inter, members_union]
  exact inf_sup_self.symm

/-! ## Sizes -/

/-- What two sets share is counted once in their union and once in their intersection. -/
theorem size_union_add_size_inter (s t : FinSet α) :
    (s ∪ t).size + (s ∩ t).size = s.size + t.size := by
  simp only [← card_members, members_union, members_inter]
  exact Finset.card_union_add_card_inter _ _

/-- A second set splits a set into what it lacks and what it shares. -/
theorem size_sdiff_add_size_inter (s t : FinSet α) : (s \ t).size + (s ∩ t).size = s.size := by
  simp only [← card_members, members_sdiff, members_inter]
  exact Finset.card_sdiff_add_card_inter _ _

/-! ## The laws together -/

/-- **The operations on sets form a Boolean algebra with exact sizes.**  The sets are any sets; the
ground set need not contain them.  A complement of a union and a double complement are known with
the order of their elements, the other laws hold up to order. -/
theorem booleanAlgebra_upToOrder (ground s t u : FinSet α) :
    (compl ground (s ∪ t)).toList = (compl ground s ∩ compl ground t).toList ∧
    (compl ground (s ∩ t)).same (compl ground s ∪ compl ground t) = true ∧
    (compl ground (compl ground s)).toList = (ground ∩ s).toList ∧
    ((∀ a ∈ s, a ∈ ground) → (compl ground (compl ground s)).same s = true) ∧
    (s ∩ (t ∪ u)).same (s ∩ t ∪ s ∩ u) = true ∧
    (s ∪ t ∩ u).same ((s ∪ t) ∩ (s ∪ u)) = true ∧
    (s ∪ t).same (t ∪ s) = true ∧
    (s ∩ t).same (t ∩ s) = true ∧
    (s ∪ s ∩ t).same s = true ∧
    s.same (s ∩ (s ∪ t)) = true ∧
    (s ∪ t).size + (s ∩ t).size = s.size + t.size ∧
    s.size = (s \ t).size + (s ∩ t).size := by
  refine ⟨congrArg toList (compl_union ground s t), compl_inter_same ground s t,
    congrArg toList (compl_compl ground s), compl_compl_same, inter_union_same s t u,
    union_inter_same s t u, union_comm_same s t, inter_comm_same s t, union_absorbs_inter s t,
    inter_absorbs_union s t, size_union_add_size_inter s t, ?_⟩
  exact (size_sdiff_add_size_inter s t).symm

/-- A double complement puts the elements into the order of the ground set; in a ground set without
one of them it loses that one. -/
theorem booleanAlgebra_upToOrder_reordered :
    let ground : FinSet String := FinSet.ofList ["a", "b", "c"]
    let inside : FinSet String := FinSet.ofList ["c", "a"]
    let outside : FinSet String := FinSet.ofList ["c", "z", "a"]
    (∀ a ∈ inside.toList, a ∈ ground) ∧
      (compl ground (compl ground inside)).same inside = true ∧
        (compl ground (compl ground inside)).toList = ["a", "c"] ∧
          (compl ground (compl ground outside)).toList = ["a", "c"] ∧
            (inside ∪ outside).size + (inside ∩ outside).size = 5 := by
  intro ground inside outside
  have covered : ∀ a ∈ inside.toList, a ∈ ground := by decide
  obtain ⟨-, -, ordered, whole, -, -, -, -, -, -, sizes, -⟩ :=
    booleanAlgebra_upToOrder ground inside outside ∅
  obtain ⟨-, -, lost, -⟩ := booleanAlgebra_upToOrder ground outside inside ∅
  exact ⟨covered, whole covered, ordered.trans (by decide), lost.trans (by decide),
    sizes.trans (by decide)⟩

end RelCalc.FinSet
