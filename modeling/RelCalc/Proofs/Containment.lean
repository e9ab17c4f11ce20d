/-
  `Proofs.Containment`: operations stay within a set of elements.

  A value lies within a set when its elements do, a number when it is not larger than
  the set.  An operation that is applied to such values, over a ground set that is a part
  of the set, gives such a value: a set is made by leaving out elements of an operand or
  of the ground set, or by joining two operands, and the only numbers are sizes.
  There is one lemma for each shape of routine that does not give a truth value.  The
  operands of standard operations are no numbers, so of these nothing need be known.
-/
import Mathlib.Data.List.Perm.Subperm
import RelCalc.Proofs.Typing

set_option autoImplicit false

namespace RelCalc

/-- A set of different elements of the ground set, a relation of different pairs of them, a truth
value, or a number between zero and the size of the ground set. -/
def Value.Within (ground : FinSet Element) : Value → Prop
  | .set s => s.toList.Nodup ∧ ∀ a ∈ s, a ∈ ground
  | .relation r => r.toList.Nodup ∧ ∀ pair ∈ r, pair.1 ∈ ground ∧ pair.2 ∈ ground
  | .bool _ => True
  | .int n => 0 ≤ n ∧ n ≤ ground.size

section Within

variable {ground s t : FinSet Element} {r : Relation} {v : Value}

theorem Value.within_set_iff : (Value.set s).Within ground ↔ ∀ a ∈ s, a ∈ ground :=
  and_iff_right s.nodup

theorem Value.within_relation_iff :
    (Value.relation r).Within ground ↔ ∀ pair ∈ r, pair.1 ∈ ground ∧ pair.2 ∈ ground :=
  and_iff_right r.nodup

/-- A value of the kind of truth values lies within any ground set. -/
theorem Value.within_of_kind_bool (kind : v.kind = .bool) : v.Within ground := by
  cases v with
  | bool => trivial
  | set | relation | int => cases kind

/-- The words of a value are taken from a set. -/
def Value.TakenFrom (words : FinSet Element) : Value → Prop
  | .set s => ∀ a ∈ s, a ∈ words
  | .relation r => ∀ pair ∈ r, pair.1 ∈ words ∧ pair.2 ∈ words
  | .bool _ => True
  | .int _ => True

instance (words : FinSet Element) : (v : Value) → Decidable (v.TakenFrom words)
  | .set s => inferInstanceAs (Decidable (∀ a ∈ s.toList, a ∈ words.toList))
  | .relation r =>
      inferInstanceAs (Decidable (∀ pair ∈ r.toList, pair.1 ∈ words.toList ∧ pair.2 ∈ words.toList))
  | .bool _ => inferInstanceAs (Decidable True)
  | .int _ => inferInstanceAs (Decidable True)

theorem Value.Within.takenFrom (h : v.Within ground) : v.TakenFrom ground := by
  cases v with
  | set s => exact Value.within_set_iff.mp h
  | relation r => exact Value.within_relation_iff.mp h
  | bool | int => trivial

/-- Only of a number there is more to say than which words it has. -/
theorem Value.within_of_takenFrom (taken : v.TakenFrom ground) (other : v.kind ≠ .int) :
    v.Within ground := by
  cases v with
  | set s => exact Value.within_set_iff.mpr taken
  | relation r => exact Value.within_relation_iff.mpr taken
  | bool => trivial
  | int => exact absurd rfl other

/-- A value within a set that is small enough can be spelled. -/
theorem Value.isSpelled_of_within (few : ground.size < Text.digitBound)
    (within : v.Within ground) : v.isSpelled = true := by
  cases v with
  | int n =>
    obtain ⟨low, high⟩ := within
    rw [Value.isSpelled, Text.isSpelled, decide_eq_true_eq]
    exact Nat.lt_of_le_of_lt (by omega) few
  | set | relation | bool => rfl

/-- A subset has at most as many elements. -/
theorem FinSet.size_le_of_subset (inside : ∀ a ∈ s, a ∈ t) : s.size ≤ t.size :=
  (List.subperm_of_subset s.nodup inside).length_le

end Within

/-! ## One lemma for each shape of routine -/

/-- Applied over a part of a set, to operands of its kinds within the set, an operation gives a
value within the set. -/
def Operation.StaysWithin (op : Operation) : Prop :=
  ∀ (ground elements : FinSet Element) (operands : List Value) (value : Value),
    (∀ a ∈ ground, a ∈ elements) → operands.map Value.kind = op.operands →
      (∀ v ∈ operands, v.Within elements) → op.apply (some (.set ground)) operands = .ok value →
        value.Within elements

namespace Operation

/-- An operation that gives truth values stays within every set. -/
theorem staysWithin_of_bool {op : Operation} (wellTyped : op.WellTyped)
    (result : op.result = .bool) : op.StaysWithin := by
  intro ground elements operands value _ kinds _ applied
  obtain ⟨value', applied', kind⟩ := wellTyped ground operands kinds
  obtain rfl : value = value' := Except.ok.inj (applied.symm.trans applied')
  exact Value.within_of_kind_bool (kind.trans result)

/-- A measure of a part of a set stays within the set if it is at most the size of the part. -/
theorem staysWithin_onCollection (name routine : String) {result : Kind}
    (measure : {α : Type} → FinSet α → Value)
    (bounded : ∀ t s : FinSet Element, (∀ a ∈ s, a ∈ t) → (measure s).Within t) :
    (ofSets name 1 result (onCollection routine measure)).StaysWithin := by
  intro ground elements operands value _ kinds within applied
  obtain ⟨s, rfl⟩ := Value.eq_set_of_map_kind kinds
  obtain rfl : measure s = value := Except.ok.inj applied
  exact bounded elements s (Value.within_set_iff.mp (within (.set s) (by simp)))

/-- A fold of two sets stays within every set that holds them. -/
theorem staysWithin_onSets (name routine : String)
    (fold : {α : Type} → [DecidableEq α] → FinSet α → FinSet α → List (FinSet α) → FinSet α)
    (inside : ∀ (s t : FinSet Element) (a : Element), a ∈ fold s t [] → a ∈ s ∨ a ∈ t) :
    (ofSets name 2 .set (onSets routine fold)).StaysWithin := by
  intro ground elements operands value _ kinds within applied
  obtain ⟨s, t, rfl⟩ := Value.eq_sets_of_map_kind kinds
  obtain rfl : Value.set (fold s t []) = value := Except.ok.inj applied
  have first := Value.within_set_iff.mp (within (.set s) (by simp))
  have second := Value.within_set_iff.mp (within (.set t) (by simp))
  refine Value.within_set_iff.mpr fun a member => ?_
  exact (inside s t a member).elim (first a) (second a)

/-- The difference leaves out elements of its first operand. -/
theorem staysWithin_difference (name : String) :
    (ofSets name 2 .set differenceRoutine).StaysWithin := by
  intro ground elements operands value _ kinds within applied
  obtain ⟨s, t, rfl⟩ := Value.eq_sets_of_map_kind kinds
  obtain rfl : Value.set (s \ t) = value := Except.ok.inj applied
  have first := Value.within_set_iff.mp (within (.set s) (by simp))
  exact Value.within_set_iff.mpr fun a member => first a (FinSet.mem_sdiff.mp member).1

/-- The complement leaves out elements of the ground set. -/
theorem staysWithin_complement (name : String) :
    (ofSets name 1 .set complementRoutine).StaysWithin := by
  intro ground elements operands value part kinds _ applied
  obtain ⟨s, rfl⟩ := Value.eq_set_of_map_kind kinds
  obtain rfl : Value.set (FinSet.compl ground s) = value := Except.ok.inj applied
  exact Value.within_set_iff.mpr fun a member => part a (FinSet.mem_compl.mp member).1

/-- A part of the ground set lies within every set that holds the ground set. -/
theorem staysWithin_ofRelation (name routine : String)
    (part : FinSet Element → Relation → FinSet Element)
    (inside : ∀ ground r, ∀ a ∈ part ground r, a ∈ ground) :
    (ofOneRelation name .set (ofRelation routine part)).StaysWithin := by
  intro ground elements operands value within kinds _ applied
  obtain ⟨r, rfl⟩ := Value.eq_relation_of_map_kind kinds
  obtain rfl : Value.set (part ground r) = value := Except.ok.inj applied
  exact Value.within_set_iff.mpr fun a member => within a (inside ground r a member)

end Operation

/-! ## The standard catalog -/

open Operation in
/-- The standard operations stay within every set that holds the ground set. -/
theorem Catalog.staysWithin_standard : ∀ op ∈ Catalog.standard.entries, op.StaysWithin := by
  have size (t s : FinSet Element) (inside : ∀ a ∈ s, a ∈ t) : (Value.int s.size).Within t :=
    ⟨Int.natCast_nonneg _, Int.ofNat_le.mpr (FinSet.size_le_of_subset inside)⟩
  -- Truth values need no argument; the other operations are gone through one by one.
  have others : ∀ op ∈ Operation.standard, op.result ≠ .bool → op.StaysWithin := by
    have bool {op : Operation} (result : op.result = .bool) :
        op.result ≠ .bool → op.StaysWithin := fun other => absurd result other
    simp only [Operation.standard, List.forall_mem_cons]
    refine ⟨bool rfl, fun _ => staysWithin_onCollection _ _ _ size,
      fun _ => staysWithin_complement _,
      fun _ => staysWithin_onSets _ _ _ fun _ _ _ => FinSet.mem_union.mp,
      fun _ => staysWithin_onSets _ _ _ fun _ _ _ member => .inl (FinSet.mem_inter.mp member).1,
      fun _ => staysWithin_difference _, bool rfl, bool rfl, bool rfl, bool rfl, bool rfl,
      bool rfl, bool rfl, bool rfl,
      fun _ => staysWithin_ofRelation _ _ _ fun _ _ _ member => (Relation.mem_domain.mp member).1,
      fun _ => staysWithin_ofRelation _ _ _ fun _ _ _ member => (Relation.mem_codomain.mp member).1,
      bool rfl, bool rfl, bool rfl, ?_⟩
    exact fun op none => absurd none List.not_mem_nil
  intro op member
  by_cases result : op.result = .bool
  · exact staysWithin_of_bool (Catalog.wellTyped_standard op member) result
  · exact others op member result

/-- A standard operation gives values within a set from operands of which the words are taken from
the set: none of the operands is a number. -/
theorem Catalog.within_of_takenFrom {op : Operation} (member : op ∈ Catalog.standard.entries)
    {ground words : FinSet Element} {operands : List Value} {value : Value}
    (part : ∀ a ∈ ground, a ∈ words) (kinds : operands.map Value.kind = op.operands)
    (taken : ∀ v ∈ operands, v.TakenFrom words)
    (applied : op.apply (some (.set ground)) operands = .ok value) : value.Within words := by
  have checked : ∀ op ∈ Operation.standard, Kind.int ∉ op.operands := by decide
  refine staysWithin_standard op member ground words operands value part kinds ?_ applied
  intro v inside
  refine Value.within_of_takenFrom (taken v inside) fun number => checked op member ?_
  rw [← kinds, ← number]
  exact List.mem_map_of_mem inside

end RelCalc
