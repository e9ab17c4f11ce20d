/-
  `Proofs.Relation.Projections`: the domain and the range of a relation, and its tests.

  The domain is cut out of the ground set, in its order, by the first components of the
  pairs, the range by the second components; turning the relation round exchanges them.
  Of a relation on the ground set they are the images of the pairs under their components,
  so whether pairs share a component shows in the sizes alone, and the tests between the
  domain and the range are tests of all pairs.
-/
import RelCalc.Proofs.Relation.Between

set_option autoImplicit false

namespace RelCalc.Relation

variable {ground : FinSet Element} {r : Relation}

/-! ## In the order of the ground set -/

theorem mem_domain_iff_pair {a : Element} :
    a ∈ domain ground r ↔ a ∈ ground ∧ ∃ pair ∈ r, pair.1 = a := by
  rw [mem_domain]
  refine and_congr_right fun _ => ⟨fun ⟨b, member⟩ => ⟨(a, b), member, rfl⟩, ?_⟩
  rintro ⟨⟨a, b⟩, member, rfl⟩
  exact ⟨b, member⟩

theorem mem_codomain_iff_pair {b : Element} :
    b ∈ codomain ground r ↔ b ∈ ground ∧ ∃ pair ∈ r, pair.2 = b := by
  rw [mem_codomain]
  refine and_congr_right fun _ => ⟨fun ⟨a, member⟩ => ⟨(a, b), member, rfl⟩, ?_⟩
  rintro ⟨⟨a, b⟩, member, rfl⟩
  exact ⟨a, member⟩

theorem keepsOrderOf_domain (ground : FinSet Element) (r : Relation) :
    (domain ground r).KeepsOrderOf ground :=
  FinSet.keepsOrderOf_filter ground _

theorem keepsOrderOf_codomain (ground : FinSet Element) (r : Relation) :
    (codomain ground r).KeepsOrderOf ground :=
  FinSet.keepsOrderOf_filter ground _

/-- The range is the domain of the relation turned round. -/
theorem codomain_eq_domain_converse (ground : FinSet Element) (r : Relation) :
    codomain ground r = domain ground r.converse := by
  refine (keepsOrderOf_codomain ground r).eq_of_mem_iff (keepsOrderOf_domain ground _) fun a => ?_
  simp only [mem_codomain, mem_domain, mem_converse]

/-! ## Relations on the ground set -/

section OnGround

variable (inside : ∀ pair ∈ r, pair.1 ∈ ground ∧ pair.2 ∈ ground)

include inside

/-- The domain holds the first components. -/
theorem mem_domain_iff_exists (a : Element) : a ∈ domain ground r ↔ ∃ pair ∈ r, pair.1 = a := by
  rw [mem_domain_iff_pair]
  refine and_iff_right_of_imp ?_
  rintro ⟨pair, member, rfl⟩
  exact (inside pair member).1

/-- The range holds the second components. -/
theorem mem_codomain_iff_exists (b : Element) :
    b ∈ codomain ground r ↔ ∃ pair ∈ r, pair.2 = b := by
  rw [mem_codomain_iff_pair]
  refine and_iff_right_of_imp ?_
  rintro ⟨pair, member, rfl⟩
  exact (inside pair member).2

theorem distinctOn_fst_iff_size : r.DistinctOn Prod.fst ↔ r.size = (domain ground r).size :=
  FinSet.distinctOn_iff_size_eq (mem_domain_iff_exists inside)

theorem distinctOn_snd_iff_size : r.DistinctOn Prod.snd ↔ r.size = (codomain ground r).size :=
  FinSet.distinctOn_iff_size_eq (mem_codomain_iff_exists inside)

/-- All pairs lie between the domain and the range. -/
theorem between_projections : between r (domain ground r) (codomain ground r) = r :=
  between_eq_self fun pair member =>
    ⟨(mem_domain_iff_exists inside _).mpr ⟨pair, member, rfl⟩,
      (mem_codomain_iff_exists inside _).mpr ⟨pair, member, rfl⟩⟩

/-- Every element of the range is reached. -/
theorem reaches_codomain : Reaches r (codomain ground r) := fun b member =>
  (mem_codomain_iff_exists inside b).mp member

theorem isFunction_iff_size : isFunction ground r = true ↔ r.size = (domain ground r).size := by
  rw [isFunction_iff_distinctOn, between_eq_self inside, distinctOn_fst_iff_size inside]

theorem surjective_projections :
    surjective r (domain ground r) (codomain ground r) = isFunction ground r := by
  rw [Bool.eq_iff_iff, surjective_iff_distinctOn, between_projections inside,
    isFunction_iff_distinctOn, between_eq_self inside]
  exact and_iff_left (reaches_codomain inside)

theorem injective_projections_iff :
    injective r (domain ground r) (codomain ground r) = true ↔
      r.size = (domain ground r).size ∧ (domain ground r).size = (codomain ground r).size := by
  rw [injective_iff_distinctOn, between_projections inside, distinctOn_fst_iff_size inside,
    distinctOn_snd_iff_size inside]
  exact and_congr_right fun same => by rw [same]

/-- An injective relation is a function, so between its projections it is surjective too. -/
theorem bijective_projections :
    bijective r (domain ground r) (codomain ground r) =
      injective r (domain ground r) (codomain ground r) := by
  rw [Bool.eq_iff_iff, bijective_iff]
  refine and_iff_left_of_imp fun injective => ?_
  rw [surjective_projections inside, isFunction_iff_size inside]
  exact ((injective_projections_iff inside).mp injective).1

end OnGround

/-- **The projections agree with the tests.**  The domain lists, in the order of the ground set, the
elements that come first in some pair, and the range is the domain of the relation turned round.
For a relation on the ground set the tests between the two can be read off the numbers of pairs and
of elements. -/
theorem projections_agree_with_tests (ground : FinSet Element) (r : Relation) :
    ((domain ground r).toList.Sublist ground.toList ∧ (domain ground r).toList.Nodup ∧
      ∀ a, a ∈ domain ground r ↔ a ∈ ground ∧ ∃ pair ∈ r, pair.1 = a) ∧
    (codomain ground r).toList = (domain ground r.converse).toList ∧
    ((∀ pair ∈ r, pair.1 ∈ ground ∧ pair.2 ∈ ground) →
      (isFunction ground r = true ↔ r.size = (domain ground r).size) ∧
      surjective r (domain ground r) (codomain ground r) = isFunction ground r ∧
      (injective r (domain ground r) (codomain ground r) = true ↔
        r.size = (domain ground r).size ∧ (domain ground r).size = (codomain ground r).size) ∧
      bijective r (domain ground r) (codomain ground r) =
        injective r (domain ground r) (codomain ground r)) := by
  refine ⟨⟨keepsOrderOf_domain ground r, (domain ground r).nodup, fun _ => mem_domain_iff_pair⟩,
    congrArg FinSet.toList (codomain_eq_domain_converse ground r), fun inside => ?_⟩
  exact ⟨isFunction_iff_size inside, surjective_projections inside,
    injective_projections_iff inside, bijective_projections inside⟩

/-- A relation that is a function and not injective: two of its three pairs end in one element. -/
theorem projections_agree_with_tests_merging :
    let ground : FinSet Element := FinSet.ofList ["a", "b", "c", "d"]
    let r : Relation := FinSet.ofList [("c", "b"), ("a", "b"), ("b", "d")]
    (∀ pair ∈ r.toList, pair.1 ∈ ground ∧ pair.2 ∈ ground) ∧
      (domain ground r).toList = ["a", "b", "c"] ∧ (codomain ground r).toList = ["b", "d"] ∧
        isFunction ground r = true ∧
          surjective r (domain ground r) (codomain ground r) = true ∧
            ¬ injective r (domain ground r) (codomain ground r) = true := by
  intro ground r
  have inside : ∀ pair ∈ r.toList, pair.1 ∈ ground ∧ pair.2 ∈ ground := by decide +kernel
  obtain ⟨-, turned, tests⟩ := projections_agree_with_tests ground r
  obtain ⟨function, surjective, injective, -⟩ := tests inside
  have single : isFunction ground r = true := function.mpr (by decide +kernel)
  refine ⟨inside, by decide +kernel, turned.trans (by decide +kernel), single,
    surjective.trans single, fun oneToOne => ?_⟩
  have sizes : (domain ground r).size ≠ (codomain ground r).size := by decide +kernel
  exact sizes (injective.mp oneToOne).2

end RelCalc.Relation
