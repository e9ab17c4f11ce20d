/-
  `Proofs.Typing`: operations keep the kinds they are declared with.

  An operation is well typed when it never fails on operands of its kinds over a
  ground set, and always gives a value of its result kind.  The routines come in a
  few shapes, so there is one typing lemma for each shape; that the standard
  catalog is well typed is an application of them, one for each operation.
-/
import Mathlib.Data.List.Nodup
import RelCalc.Catalog

set_option autoImplicit false

namespace RelCalc

/-- On operands of its kinds, over any ground set, an operation gives a value of its result kind. -/
def Operation.WellTyped (op : Operation) : Prop :=
  ∀ (ground : FinSet Element) (operands : List Value),
    operands.map Value.kind = op.operands →
      ∃ value, op.apply (some (.set ground)) operands = .ok value ∧ value.kind = op.result

/-- Every operation of a catalog is well typed. -/
def Catalog.WellTyped (catalog : Catalog) : Prop := ∀ op ∈ catalog.entries, op.WellTyped

/-- On operands of its kinds, over any ground set, no operation of a catalog gives a number of more
than 4300 digits. -/
def Catalog.SpellsResults (catalog : Catalog) : Prop :=
  ∀ op ∈ catalog.entries, ∀ (ground : FinSet Element) (operands : List Value) (value : Value),
    operands.map Value.kind = op.operands → op.apply (some (.set ground)) operands = .ok value →
      value.isSpelled = true

/-! ## Values by their kind -/

/-- A value of the kind of sets is a set. -/
theorem Value.kind_eq_set_iff {v : Value} : v.kind = .set ↔ ∃ s, v = .set s := by
  cases v <;> simp [Value.kind]

/-- A value of the kind of relations is a relation. -/
theorem Value.kind_eq_relation_iff {v : Value} : v.kind = .relation ↔ ∃ r, v = .relation r := by
  cases v <;> simp [Value.kind]

/-- One operand of the kind of sets is one set. -/
theorem Value.eq_set_of_map_kind {operands : List Value} (h : operands.map kind = [.set]) :
    ∃ s, operands = [.set s] := by
  obtain ⟨v, rfl, hv⟩ := List.map_eq_singleton_iff.mp h
  obtain ⟨s, rfl⟩ := kind_eq_set_iff.mp hv
  exact ⟨s, rfl⟩

/-- Two operands of the kind of sets are two sets. -/
theorem Value.eq_sets_of_map_kind {operands : List Value} (h : operands.map kind = [.set, .set]) :
    ∃ s t, operands = [.set s, .set t] := by
  obtain ⟨v, rest, rfl, hv, hrest⟩ := List.map_eq_cons_iff.mp h
  obtain ⟨s, rfl⟩ := kind_eq_set_iff.mp hv
  obtain ⟨t, rfl⟩ := eq_set_of_map_kind hrest
  exact ⟨s, t, rfl⟩

/-- One operand of the kind of relations is one relation. -/
theorem Value.eq_relation_of_map_kind {operands : List Value}
    (h : operands.map kind = [.relation]) : ∃ r, operands = [.relation r] := by
  obtain ⟨v, rfl, hv⟩ := List.map_eq_singleton_iff.mp h
  obtain ⟨r, rfl⟩ := kind_eq_relation_iff.mp hv
  exact ⟨r, rfl⟩

/-- Operands of the kinds of a relation between two sets are a relation and two sets. -/
theorem Value.eq_relation_sets_of_map_kind {operands : List Value}
    (h : operands.map kind = [.relation, .set, .set]) :
    ∃ r s t, operands = [.relation r, .set s, .set t] := by
  obtain ⟨v, rest, rfl, hv, hrest⟩ := List.map_eq_cons_iff.mp h
  obtain ⟨r, rfl⟩ := kind_eq_relation_iff.mp hv
  obtain ⟨s, t, rfl⟩ := eq_sets_of_map_kind hrest
  exact ⟨r, s, t, rfl⟩

namespace Operation

/-! ## One lemma for each shape of routine -/

/-- A measure of one set is well typed when the measure has the result kind. -/
theorem wellTyped_onCollection (name routine : String) {result : Kind}
    (measure : {α : Type} → FinSet α → Value)
    (hkind : ∀ s : FinSet Element, (measure s).kind = result) :
    (ofSets name 1 result (onCollection routine measure)).WellTyped := by
  intro ground operands hkinds
  obtain ⟨s, rfl⟩ := Value.eq_set_of_map_kind hkinds
  exact ⟨measure s, rfl, hkind s⟩

/-- A comparison of two sets is well typed. -/
theorem wellTyped_onCollections (name routine : String)
    (compare : {α : Type} → [DecidableEq α] → FinSet α → FinSet α → Bool) :
    (ofSets name 2 .bool (onCollections routine compare)).WellTyped := by
  intro ground operands hkinds
  obtain ⟨s, t, rfl⟩ := Value.eq_sets_of_map_kind hkinds
  exact ⟨.bool (compare s t), rfl, rfl⟩

/-- A fold of sets is well typed as an operation on two of them. -/
theorem wellTyped_onSets (name routine : String)
    (fold : {α : Type} → [DecidableEq α] → FinSet α → FinSet α → List (FinSet α) → FinSet α) :
    (ofSets name 2 .set (onSets routine fold)).WellTyped := by
  intro ground operands hkinds
  obtain ⟨s, t, rfl⟩ := Value.eq_sets_of_map_kind hkinds
  exact ⟨.set (fold s t []), rfl, rfl⟩

/-- The difference of two sets is well typed. -/
theorem wellTyped_difference (name : String) :
    (ofSets name 2 .set differenceRoutine).WellTyped := by
  intro ground operands hkinds
  obtain ⟨s, t, rfl⟩ := Value.eq_sets_of_map_kind hkinds
  exact ⟨.set (s \ t), rfl, rfl⟩

/-- The complement is well typed: the ground set consists of words. -/
theorem wellTyped_complement (name : String) :
    (ofSets name 1 .set complementRoutine).WellTyped := by
  intro ground operands hkinds
  obtain ⟨s, rfl⟩ := Value.eq_set_of_map_kind hkinds
  exact ⟨.set (FinSet.compl ground s), rfl, rfl⟩

/-- A predicate of a relation over the ground set is well typed. -/
theorem wellTyped_onRelation (name routine : String)
    (test : {α : Type} → [DecidableEq α] → FinSet α → FinSet (α × α) → Bool) :
    (ofOneRelation name .bool (onRelation routine test)).WellTyped := by
  intro ground operands hkinds
  obtain ⟨r, rfl⟩ := Value.eq_relation_of_map_kind hkinds
  exact ⟨.bool (test ground r), rfl, rfl⟩

/-- A set taken from the ground set by a relation is well typed. -/
theorem wellTyped_ofRelation (name routine : String)
    (part : FinSet Element → Relation → FinSet Element) :
    (ofOneRelation name .set (ofRelation routine part)).WellTyped := by
  intro ground operands hkinds
  obtain ⟨r, rfl⟩ := Value.eq_relation_of_map_kind hkinds
  exact ⟨.set (part ground r), rfl, rfl⟩

/-- A predicate of a relation between two sets is well typed. -/
theorem wellTyped_ofRelationBetween (name : String)
    (test : Relation → FinSet Element → FinSet Element → Bool) :
    (ofRelationBetween name test).WellTyped := by
  intro ground operands hkinds
  obtain ⟨r, s, t, rfl⟩ := Value.eq_relation_sets_of_map_kind hkinds
  exact ⟨.bool (test r s t), rfl, rfl⟩

end Operation

/-! ## The standard catalog -/

open Operation in
/-- The standard operations are well typed. -/
theorem Catalog.wellTyped_standard : Catalog.standard.WellTyped := by
  show ∀ op ∈ Operation.standard, op.WellTyped
  simp only [Operation.standard, List.forall_mem_cons]
  refine ⟨wellTyped_onCollection _ _ _ fun _ => rfl, wellTyped_onCollection _ _ _ fun _ => rfl,
    wellTyped_complement _, wellTyped_onSets _ _ _, wellTyped_onSets _ _ _,
    wellTyped_difference _, wellTyped_onCollections _ _ _, wellTyped_onCollections _ _ _,
    wellTyped_onCollections _ _ _, wellTyped_onRelation _ _ _, wellTyped_onRelation _ _ _,
    wellTyped_onRelation _ _ _, wellTyped_onRelation _ _ _, wellTyped_onRelation _ _ _,
    wellTyped_ofRelation _ _ _, wellTyped_ofRelation _ _ _, wellTyped_ofRelationBetween _ _,
    wellTyped_ofRelationBetween _ _, wellTyped_ofRelationBetween _ _, ?_⟩
  simp

/-- A standard operation works on the kind of its first operand. -/
theorem Catalog.level_standard {op : Operation} (member : op ∈ Catalog.standard.entries)
    {kind : Kind} (first : op.operands.head? = some kind) : kind = op.level := by
  have checked : ∀ op ∈ Operation.standard, op.operands.head? = some op.level := by decide
  have level := checked op member
  rw [first] at level
  exact Option.some.inj level

/-! ## Finding operations -/

/-- Names are different, so a name finds an operation exactly when it is the name of that one. -/
theorem Catalog.find?_eq_some_iff {catalog : Catalog} {name : String} {op : Operation} :
    catalog.find? name = some op ↔ op ∈ catalog.entries ∧ op.name = name := by
  constructor
  · exact mem_and_name_of_find?
  · intro h
    obtain ⟨member, rfl⟩ := h
    cases found : catalog.find? op.name with
    | none =>
      have absent := find?_eq_none_iff.mp found
      exact absurd (List.mem_map_of_mem member) absent
    | some other =>
      obtain ⟨otherMember, sameName⟩ := mem_and_name_of_find? found
      have same : other = op :=
        List.inj_on_of_nodup_map catalog.distinct otherMember member sameName
      rw [same]

end RelCalc
