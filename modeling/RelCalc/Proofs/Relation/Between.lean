/-
  `Proofs.Relation.Between`: what the tests between two sets say about pairs.

  Between two sets a relation has those of its pairs that lead from an element of the one to
  an element of the other.  It is injective when no two of these pairs share a component,
  and surjective when no two share their first and every element of the second set is
  reached.  Pairs that do not share a component can be counted by it, which compares their
  number with the sizes of the sets.
-/
import RelCalc.Proofs.FinSet.Members
import RelCalc.Proofs.Relation.Predicates

set_option autoImplicit false

namespace RelCalc.Relation

section Pairs

variable {α β : Type} [DecidableEq α] [DecidableEq β] {r : FinSet (α × β)} {source : FinSet α}
  {target : FinSet β}

/-- The pairs of a relation that lead from one set to another. -/
def between (r : FinSet (α × β)) (source : FinSet α) (target : FinSet β) : FinSet (α × β) :=
  r.filter fun pair => pair.1 ∈ source ∧ pair.2 ∈ target

@[simp] theorem mem_between {pair : α × β} :
    pair ∈ between r source target ↔ pair ∈ r ∧ pair.1 ∈ source ∧ pair.2 ∈ target := by
  simp [between]

/-- All pairs of a relation lie between two sets that hold their components. -/
theorem between_eq_self (inside : ∀ pair ∈ r, pair.1 ∈ source ∧ pair.2 ∈ target) :
    between r source target = r :=
  FinSet.ext (List.filter_eq_self.mpr fun pair member => decide_eq_true (inside pair member))

/-! ## Shared components -/

/-- No two pairs share their first component when no element of the source has two partners. -/
theorem distinctOn_fst_between :
    (between r source target).DistinctOn Prod.fst ↔
      ∀ a ∈ source, ∀ b ∈ target, ∀ c ∈ target, (a, b) ∈ r → (a, c) ∈ r → b = c := by
  constructor
  · intro distinct a ha b hb c hc hab hac
    by_contra different
    exact distinct (a, b) (mem_between.mpr ⟨hab, ha, hb⟩) (a, c) (mem_between.mpr ⟨hac, ha, hc⟩)
      (fun same => different (congrArg Prod.snd same)) rfl
  · rintro single ⟨a, b⟩ hp ⟨a', c⟩ hq different rfl
    obtain ⟨hab, ha, hb⟩ := mem_between.mp hp
    obtain ⟨hac, -, hc⟩ := mem_between.mp hq
    exact different (congrArg (Prod.mk a) (single a ha b hb c hc hab hac))

/-- No two pairs share their second component when no element of the target has two partners. -/
theorem distinctOn_snd_between :
    (between r source target).DistinctOn Prod.snd ↔
      ∀ c ∈ target, ∀ a ∈ source, ∀ b ∈ source, (a, c) ∈ r → (b, c) ∈ r → a = b := by
  constructor
  · intro distinct c hc a ha b hb hac hbc
    by_contra different
    exact distinct (a, c) (mem_between.mpr ⟨hac, ha, hc⟩) (b, c) (mem_between.mpr ⟨hbc, hb, hc⟩)
      (fun same => different (congrArg Prod.fst same)) rfl
  · rintro single ⟨a, c⟩ hp ⟨b, c'⟩ hq different rfl
    obtain ⟨hac, ha, hc⟩ := mem_between.mp hp
    obtain ⟨hbc, hb, -⟩ := mem_between.mp hq
    exact different (congrArg (Prod.mk · c) (single c hc a ha b hb hac hbc))

/-- Every element of the target is the second component of a pair. -/
def Reaches (pairs : FinSet (α × β)) (target : FinSet β) : Prop :=
  ∀ b ∈ target, ∃ pair ∈ pairs, pair.2 = b

theorem reaches_between :
    Reaches (between r source target) target ↔ ∀ b ∈ target, ∃ a ∈ source, (a, b) ∈ r := by
  refine forall₂_congr fun b hb => ?_
  constructor
  · rintro ⟨⟨a, b'⟩, member, rfl⟩
    obtain ⟨hab, ha, -⟩ := mem_between.mp member
    exact ⟨a, ha, hab⟩
  · rintro ⟨a, ha, hab⟩
    exact ⟨(a, b), mem_between.mpr ⟨hab, ha, hb⟩, rfl⟩

/-! ## The tests -/

theorem injective_iff_distinctOn :
    injective r source target = true ↔
      (between r source target).DistinctOn Prod.fst ∧
        (between r source target).DistinctOn Prod.snd := by
  rw [injective_iff, distinctOn_fst_between, distinctOn_snd_between]

theorem surjective_iff_distinctOn :
    surjective r source target = true ↔
      (between r source target).DistinctOn Prod.fst ∧
        Reaches (between r source target) target := by
  rw [surjective_iff, distinctOn_fst_between, reaches_between]

theorem bijective_iff :
    bijective r source target = true ↔
      injective r source target = true ∧ surjective r source target = true := by
  rw [bijective, Bool.and_eq_true]

theorem isFunction_iff_distinctOn {ground : FinSet α} {r : FinSet (α × α)} :
    isFunction ground r = true ↔ (between r ground ground).DistinctOn Prod.fst := by
  rw [isFunction_iff, distinctOn_fst_between]

/-! ## Counting -/

theorem size_between_le_source (distinct : (between r source target).DistinctOn Prod.fst) :
    (between r source target).size ≤ source.size :=
  FinSet.size_le_of_distinctOn distinct fun _ member => (mem_between.mp member).2.1

theorem size_between_le_target (distinct : (between r source target).DistinctOn Prod.snd) :
    (between r source target).size ≤ target.size :=
  FinSet.size_le_of_distinctOn distinct fun _ member => (mem_between.mp member).2.2

theorem size_target_le_between (reaches : Reaches (between r source target) target) :
    target.size ≤ (between r source target).size :=
  FinSet.size_le_of_onto reaches

end Pairs

/-! ## Turned round -/

/-- A relation is injective exactly when it is injective turned round. -/
theorem injective_converse (r : Relation) (source target : FinSet Element) :
    injective r.converse target source = injective r source target := by
  rw [Bool.eq_iff_iff, injective_iff, injective_iff]
  simp only [mem_converse]
  exact and_comm

/-- **The tests between two sets decide properties of the pairs between them**, and bound their
number.  Pairs of an injective relation share no component, pairs of a surjective one share no first
component and reach every element of the target, and pairs of a bijective one do both. -/
theorem betweenTests_iff_pairs (r : Relation) (source target : FinSet Element) :
    let pairs := between r source target
    (injective r source target = true ↔
      pairs.DistinctOn Prod.fst ∧ pairs.DistinctOn Prod.snd) ∧
    (surjective r source target = true ↔ pairs.DistinctOn Prod.fst ∧ Reaches pairs target) ∧
    (bijective r source target = true ↔
      (pairs.DistinctOn Prod.fst ∧ pairs.DistinctOn Prod.snd) ∧
        pairs.DistinctOn Prod.fst ∧ Reaches pairs target) ∧
    injective r source target = injective r.converse target source ∧
    (injective r source target = true → pairs.size ≤ source.size ∧ pairs.size ≤ target.size) ∧
    (surjective r source target = true → target.size ≤ pairs.size ∧ pairs.size ≤ source.size) ∧
    (bijective r source target = true → pairs.size = target.size) := by
  intro pairs
  refine ⟨injective_iff_distinctOn, surjective_iff_distinctOn, ?_,
    (injective_converse r source target).symm, fun injective => ?_, fun surjective => ?_,
    fun bijective => ?_⟩
  · rw [bijective_iff, injective_iff_distinctOn, surjective_iff_distinctOn]
  · obtain ⟨firsts, seconds⟩ := injective_iff_distinctOn.mp injective
    exact ⟨size_between_le_source firsts, size_between_le_target seconds⟩
  · obtain ⟨firsts, reaches⟩ := surjective_iff_distinctOn.mp surjective
    exact ⟨size_target_le_between reaches, size_between_le_source firsts⟩
  · obtain ⟨injective, surjective⟩ := bijective_iff.mp bijective
    obtain ⟨-, seconds⟩ := injective_iff_distinctOn.mp injective
    obtain ⟨-, reaches⟩ := surjective_iff_distinctOn.mp surjective
    exact le_antisymm (size_between_le_target seconds) (size_target_le_between reaches)

/-- Two overlapping sets and a relation with as many pairs outside them as between them.  Over all
of its pairs it would not be injective; between the sets it is bijective. -/
theorem betweenTests_iff_pairs_overlapping :
    let r : Relation := FinSet.ofList [("a", "b"), ("a", "z"), ("b", "c"), ("c", "b")]
    let source : FinSet Element := FinSet.ofList ["b", "a"]
    let target : FinSet Element := FinSet.ofList ["b", "c"]
    bijective r source target = true ∧ (between r source target).size = target.size ∧
      injective r source target = true ∧ (between r source target).size ≤ source.size ∧
        injective r.converse target source = true ∧
          ¬ (r.DistinctOn Prod.fst ∨ r.DistinctOn Prod.snd) := by
  intro r source target
  have bothWays : bijective r source target = true := by decide +kernel
  have oneToOne : injective r source target = true := (bijective_iff.mp bothWays).1
  obtain ⟨-, -, -, turned, bounds, -, exact⟩ := betweenTests_iff_pairs r source target
  refine ⟨bothWays, exact bothWays, oneToOne, (bounds oneToOne).1, turned.symm.trans oneToOne, ?_⟩
  rintro (firsts | seconds)
  · exact firsts ("a", "b") (by decide) ("a", "z") (by decide) (by decide) rfl
  · exact seconds ("a", "b") (by decide) ("c", "b") (by decide) (by decide) rfl

end RelCalc.Relation
