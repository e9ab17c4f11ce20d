/-
  `Proofs.Renaming.Operations`: operations on renamed operands.

  Two values correspond when they are the same truth value or number, or when one holds
  the images of the elements or pairs of the other.  An operation respects a renaming
  when corresponding operands over corresponding ground sets give corresponding results.
  As with typing there is one lemma for each shape of routine, and the standard catalog
  is an application of them.
-/
import RelCalc.Proofs.Renaming.Relations
import RelCalc.Proofs.Typing

set_option autoImplicit false

namespace RelCalc

/-! ## Corresponding values -/

/-- Values that differ by a renaming of elements, and in their order as far as is allowed. -/
inductive Value.Renamed (order : Arrangement) (f : Element → Element) : Value → Value → Prop where
  /-- The second set holds the images of the elements of the first. -/
  | set {s t : FinSet Element} (elements : s.Renamed order f t) : Renamed order f (.set s) (.set t)
  /-- The second relation holds the images of the pairs of the first. -/
  | relation {r q : Relation} (pairs : r.RenamedPairs order f q) :
      Renamed order f (.relation r) (.relation q)
  /-- Truth values are the same. -/
  | bool (truth : Bool) : Renamed order f (.bool truth) (.bool truth)
  /-- Numbers are the same. -/
  | int (number : Int) : Renamed order f (.int number) (.int number)

/-- Operands that correspond one by one. -/
abbrev RenamedOperands (order : Arrangement) (f : Element → Element)
    (operands others : List Value) : Prop :=
  List.Forall₂ (Value.Renamed order f) operands others

section Operands

variable {order : Arrangement} {f : Element → Element} {others : List Value} {s t : FinSet Element}
  {r : Relation}

theorem RenamedOperands.of_set (h : RenamedOperands order f [.set s] others) :
    ∃ s', others = [.set s'] ∧ s.Renamed order f s' := by
  obtain ⟨_, _, first, none, rfl⟩ := List.forall₂_cons_left_iff.mp h
  obtain rfl := List.forall₂_nil_left_iff.mp none
  cases first with
  | set elements => exact ⟨_, rfl, elements⟩

theorem RenamedOperands.of_sets (h : RenamedOperands order f [.set s, .set t] others) :
    ∃ s' t', others = [.set s', .set t'] ∧ s.Renamed order f s' ∧ t.Renamed order f t' := by
  obtain ⟨_, _, first, rest, rfl⟩ := List.forall₂_cons_left_iff.mp h
  obtain ⟨t', rfl, second⟩ := RenamedOperands.of_set rest
  cases first with
  | set elements => exact ⟨_, t', rfl, elements, second⟩

theorem RenamedOperands.of_relation (h : RenamedOperands order f [.relation r] others) :
    ∃ r', others = [.relation r'] ∧ r.RenamedPairs order f r' := by
  obtain ⟨_, _, first, none, rfl⟩ := List.forall₂_cons_left_iff.mp h
  obtain rfl := List.forall₂_nil_left_iff.mp none
  cases first with
  | relation pairs => exact ⟨_, rfl, pairs⟩

theorem RenamedOperands.of_relation_sets
    (h : RenamedOperands order f [.relation r, .set s, .set t] others) :
    ∃ r' s' t', others = [.relation r', .set s', .set t'] ∧ r.RenamedPairs order f r' ∧
      s.Renamed order f s' ∧ t.Renamed order f t' := by
  obtain ⟨_, _, first, rest, rfl⟩ := List.forall₂_cons_left_iff.mp h
  obtain ⟨s', t', rfl, second, third⟩ := RenamedOperands.of_sets rest
  cases first with
  | relation pairs => exact ⟨_, s', t', rfl, pairs, second, third⟩

end Operands

/-! ## One lemma for each shape of routine -/

/-- Corresponding operands, of the kinds of the operation and over corresponding ground sets, give
corresponding results. -/
def Operation.Respects (order : Arrangement) (f : Element → Element) (op : Operation) : Prop :=
  ∀ (ground ground' : FinSet Element) (operands others : List Value) (value other : Value),
    ground.Renamed order f ground' → operands.map Value.kind = op.operands →
      RenamedOperands order f operands others →
        op.apply (some (.set ground)) operands = .ok value →
          op.apply (some (.set ground')) others = .ok other → value.Renamed order f other

namespace Operation

section Shapes

variable {order : Arrangement} {f : Element → Element}

/-- A measure that corresponding sets share is respected. -/
theorem respects_onCollection (name routine : String) {result : Kind}
    (measure : {α : Type} → FinSet α → Value)
    (shared : ∀ s t : FinSet Element, s.Renamed order f t →
      (measure s).Renamed order f (measure t)) :
    (ofSets name 1 result (onCollection routine measure)).Respects order f := by
  intro ground ground' operands others value other _ kinds hoperands applied applied'
  obtain ⟨s, rfl⟩ := Value.eq_set_of_map_kind kinds
  obtain ⟨s', rfl, hs⟩ := RenamedOperands.of_set hoperands
  obtain rfl : measure s = value := Except.ok.inj applied
  obtain rfl : measure s' = other := Except.ok.inj applied'
  exact shared s s' hs

/-- A comparison that does not see names or order is respected. -/
theorem respects_onCollections (name routine : String)
    (compare : {α : Type} → [DecidableEq α] → FinSet α → FinSet α → Bool)
    (blind : ∀ s s' t t' : FinSet Element, s.Renamed order f s' → t.Renamed order f t' →
      compare s' t' = compare s t) :
    (ofSets name 2 .bool (onCollections routine compare)).Respects order f := by
  intro ground ground' operands others value other _ kinds hoperands applied applied'
  obtain ⟨s, t, rfl⟩ := Value.eq_sets_of_map_kind kinds
  obtain ⟨s', t', rfl, hs, ht⟩ := RenamedOperands.of_sets hoperands
  obtain rfl : Value.bool (compare s t) = value := Except.ok.inj applied
  obtain rfl : Value.bool (compare s' t') = other := Except.ok.inj applied'
  rw [blind s s' t t' hs ht]
  exact .bool _

/-- A fold of two sets into a corresponding one is respected. -/
theorem respects_onSets (name routine : String)
    (fold : {α : Type} → [DecidableEq α] → FinSet α → FinSet α → List (FinSet α) → FinSet α)
    (carried : ∀ s s' t t' : FinSet Element, s.Renamed order f s' → t.Renamed order f t' →
      (fold s t []).Renamed order f (fold s' t' [])) :
    (ofSets name 2 .set (onSets routine fold)).Respects order f := by
  intro ground ground' operands others value other _ kinds hoperands applied applied'
  obtain ⟨s, t, rfl⟩ := Value.eq_sets_of_map_kind kinds
  obtain ⟨s', t', rfl, hs, ht⟩ := RenamedOperands.of_sets hoperands
  obtain rfl : Value.set (fold s t []) = value := Except.ok.inj applied
  obtain rfl : Value.set (fold s' t' []) = other := Except.ok.inj applied'
  exact .set (carried s s' t t' hs ht)

/-- The difference is respected. -/
theorem respects_difference (inj : Function.Injective f) (name : String) :
    (ofSets name 2 .set differenceRoutine).Respects order f := by
  intro ground ground' operands others value other _ kinds hoperands applied applied'
  obtain ⟨s, t, rfl⟩ := Value.eq_sets_of_map_kind kinds
  obtain ⟨u, v, rfl, hs, ht⟩ := RenamedOperands.of_sets hoperands
  obtain rfl : Value.set (s \ t) = value := Except.ok.inj applied
  obtain rfl : Value.set (u \ v) = other := Except.ok.inj applied'
  exact .set (hs.sdiff ht inj)

/-- The complement is respected. -/
theorem respects_complement (inj : Function.Injective f) (name : String) :
    (ofSets name 1 .set complementRoutine).Respects order f := by
  intro ground ground' operands others value other hground kinds hoperands applied applied'
  obtain ⟨s, rfl⟩ := Value.eq_set_of_map_kind kinds
  obtain ⟨u, rfl, hs⟩ := RenamedOperands.of_set hoperands
  obtain rfl : Value.set (FinSet.compl ground s) = value := Except.ok.inj applied
  obtain rfl : Value.set (FinSet.compl ground' u) = other := Except.ok.inj applied'
  exact .set (hground.sdiff hs inj)

/-- A predicate over the ground set that does not see names or order is respected. -/
theorem respects_onRelation (name routine : String)
    (test : {α : Type} → [DecidableEq α] → FinSet α → FinSet (α × α) → Bool)
    (blind : ∀ (ground ground' : FinSet Element) (r q : Relation),
      ground.Renamed order f ground' → r.RenamedPairs order f q → test ground' q = test ground r) :
    (ofOneRelation name .bool (onRelation routine test)).Respects order f := by
  intro ground ground' operands others value other hground kinds hoperands applied applied'
  obtain ⟨r, rfl⟩ := Value.eq_relation_of_map_kind kinds
  obtain ⟨q, rfl, hr⟩ := RenamedOperands.of_relation hoperands
  obtain rfl : Value.bool (test ground r) = value := Except.ok.inj applied
  obtain rfl : Value.bool (test ground' q) = other := Except.ok.inj applied'
  rw [blind ground ground' r q hground hr]
  exact .bool _

/-- A part of the ground set that corresponds to the same part of another is respected. -/
theorem respects_ofRelation (name routine : String)
    (part : FinSet Element → Relation → FinSet Element)
    (carried : ∀ (ground ground' : FinSet Element) (r q : Relation),
      ground.Renamed order f ground' → r.RenamedPairs order f q →
        (part ground r).Renamed order f (part ground' q)) :
    (ofOneRelation name .set (ofRelation routine part)).Respects order f := by
  intro ground ground' operands others value other hground kinds hoperands applied applied'
  obtain ⟨r, rfl⟩ := Value.eq_relation_of_map_kind kinds
  obtain ⟨q, rfl, hr⟩ := RenamedOperands.of_relation hoperands
  obtain rfl : Value.set (part ground r) = value := Except.ok.inj applied
  obtain rfl : Value.set (part ground' q) = other := Except.ok.inj applied'
  exact .set (carried ground ground' r q hground hr)

/-- A predicate between two sets that does not see names or order is respected. -/
theorem respects_ofRelationBetween (name : String)
    (test : Relation → FinSet Element → FinSet Element → Bool)
    (blind : ∀ (r q : Relation) (s s' t t' : FinSet Element), r.RenamedPairs order f q →
      s.Renamed order f s' → t.Renamed order f t' → test q s' t' = test r s t) :
    (ofRelationBetween name test).Respects order f := by
  intro ground ground' operands others value other _ kinds hoperands applied applied'
  obtain ⟨r, s, t, rfl⟩ := Value.eq_relation_sets_of_map_kind kinds
  obtain ⟨q, s', t', rfl, hr, hs, ht⟩ := RenamedOperands.of_relation_sets hoperands
  obtain rfl : Value.bool (test r s t) = value := Except.ok.inj applied
  obtain rfl : Value.bool (test q s' t') = other := Except.ok.inj applied'
  rw [blind r q s s' t t' hr hs ht]
  exact .bool _

end Shapes

end Operation

/-! ## The standard catalog -/

open Operation in
/-- The standard operations respect every renaming, whatever it says about order. -/
theorem Catalog.respects_standard {order : Arrangement} {f : Element → Element}
    (inj : Function.Injective f) : ∀ op ∈ Catalog.standard.entries, op.Respects order f := by
  have isEmpty (s t : FinSet Element) (h : s.Renamed order f t) :
      (Value.bool s.isEmpty).Renamed order f (.bool t.isEmpty) := by
    rw [h.isEmpty_eq]
    exact .bool _
  have size (s t : FinSet Element) (h : s.Renamed order f t) :
      (Value.int s.size).Renamed order f (.int t.size) := by
    rw [h.size_eq]
    exact .int _
  show ∀ op ∈ Operation.standard, op.Respects order f
  simp only [Operation.standard, List.forall_mem_cons]
  refine ⟨respects_onCollection _ _ _ isEmpty, respects_onCollection _ _ _ size,
    respects_complement inj _,
    respects_onSets _ _ _ fun _ _ _ _ hs ht => hs.union ht inj,
    respects_onSets _ _ _ fun _ _ _ _ hs ht => hs.inter ht inj,
    respects_difference inj _,
    respects_onCollections _ _ _ fun _ _ _ _ hs ht => hs.isSubset_eq ht inj,
    respects_onCollections _ _ _ fun _ _ _ _ hs ht => hs.isProperSubset_eq ht inj,
    respects_onCollections _ _ _ fun _ _ _ _ hs ht => hs.isEqual_eq ht inj,
    respects_onRelation _ _ _ fun _ _ _ _ => Relation.reflexive_renamed inj,
    respects_onRelation _ _ _ fun _ _ _ _ => Relation.symmetric_renamed inj,
    respects_onRelation _ _ _ fun _ _ _ _ => Relation.antisymmetric_renamed inj,
    respects_onRelation _ _ _ fun _ _ _ _ => Relation.transitive_renamed inj,
    respects_onRelation _ _ _ fun _ _ _ _ => Relation.isFunction_renamed inj,
    respects_ofRelation _ _ _ fun _ _ _ _ => Relation.domain_renamed inj,
    respects_ofRelation _ _ _ fun _ _ _ _ => Relation.codomain_renamed inj,
    respects_ofRelationBetween _ _ fun _ _ _ _ _ _ => Relation.injective_renamed inj,
    respects_ofRelationBetween _ _ fun _ _ _ _ _ _ => Relation.surjective_renamed inj,
    respects_ofRelationBetween _ _ fun _ _ _ _ _ _ => Relation.bijective_renamed inj, ?_⟩
  exact fun op none => absurd none List.not_mem_nil

end RelCalc
