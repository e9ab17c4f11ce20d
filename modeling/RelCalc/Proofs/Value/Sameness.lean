/-
  `Proofs.Value.Sameness`: values up to order, and how many of them a list holds.

  Sameness of values is equality of what is left when the order of elements is forgotten, so it
  is an equivalence and values fall into classes.  The representatives of a list are one value
  from each class that the list meets.  So their number is the number of these classes, however
  the list is ordered and whichever value of a class comes first.
-/
import RelCalc.Proofs.FinSet.Members
import RelCalc.Value

set_option autoImplicit false

namespace RelCalc

/-- A value whose elements have no order. -/
inductive UnorderedValue where
  | set (members : Finset Element)
  | relation (members : Finset (Element × Element))
  | bool (truth : Bool)
  | int (number : Int)

namespace Value

variable {v w : Value} {values found others : List Value}

/-! ## Sameness -/

/-- The value without the order of its elements. -/
def unordered : Value → UnorderedValue
  | set s => .set s.members
  | relation r => .relation (FinSet.members r)
  | bool truth => .bool truth
  | int number => .int number

/-- Values are the same when they are equal without their order. -/
theorem same_iff_unordered_eq : v.same w = true ↔ v.unordered = w.unordered := by
  cases v with
  | set s =>
    cases w with
    | set t => rw [same, FinSet.same_iff_members_eq, unordered, unordered, UnorderedValue.set.injEq]
    | relation _ | bool _ | int _ => simp [same, unordered]
  | relation r =>
    cases w with
    | relation q =>
      rw [same, FinSet.same_iff_members_eq, unordered, unordered, UnorderedValue.relation.injEq]
    | set _ | bool _ | int _ => simp [same, unordered]
  | bool _ => cases w <;> simp [same, unordered]
  | int _ => cases w <;> simp [same, unordered]

theorem equivalence_same : Equivalence fun v w : Value => v.same w = true := by
  simp only [same_iff_unordered_eq]
  exact eq_equivalence.comap unordered

/-- Sameness as an equivalence of values. -/
instance sameness : Setoid Value := ⟨fun v w => v.same w = true, equivalence_same⟩

/-! ## Classes -/

/-- The class of all values that are the same as a value. -/
def toClass (v : Value) : Quotient sameness := ⟦v⟧

theorem toClass_eq_iff : v.toClass = w.toClass ↔ v.same w = true := Quotient.eq

instance : DecidableEq (Quotient sameness) :=
  @Quotient.decidableEq Value sameness fun v w => inferInstanceAs (Decidable (v.same w = true))

/-- The classes that the values of a list belong to. -/
def classes (values : List Value) : Finset (Quotient sameness) := (values.map toClass).toFinset

theorem classes_concat (values : List Value) (v : Value) :
    classes (values ++ [v]) = insert v.toClass (classes values) := by
  rw [classes, List.map_append, List.toFinset_append, Finset.union_comm]
  rfl

theorem classes_of_perm (reordered : others.Perm values) : classes others = classes values :=
  List.toFinset_eq_of_perm _ _ (reordered.map toClass)

theorem any_same_iff : found.any v.same = true ↔ v.toClass ∈ found.map toClass := by
  rw [List.any_eq_true, List.mem_map]
  refine exists_congr fun w => and_congr_right fun _ => ?_
  rw [← toClass_eq_iff]
  exact eq_comm

/-- Values of different classes are as many as the classes they come from. -/
theorem length_eq_card_classes (different : (found.map toClass).Nodup)
    (same : classes found = classes values) : found.length = (classes values).card := by
  rw [← same, classes, List.toFinset_card_of_nodup different, List.length_map]

/-! ## Representatives -/

/-- One more value is a representative unless its class has one. -/
theorem representatives_concat (values : List Value) (v : Value) :
    representatives (values ++ [v]) =
      if (representatives values).any v.same then representatives values
      else representatives values ++ [v] := by
  rw [representatives, List.foldl_append]
  rfl

/-- No class has two representatives. -/
theorem nodup_representatives (values : List Value) :
    ((representatives values).map toClass).Nodup := by
  -- The fold goes on behind the values it has seen, so the induction is from the back.
  induction values using List.reverseRecOn with
  | nil => exact List.nodup_nil
  | append_singleton values v ih =>
    rw [representatives_concat]
    split
    · exact ih
    · next new =>
      rw [any_same_iff] at new
      rw [List.map_append, List.map_singleton, ← List.concat_eq_append]
      exact ih.concat new

/-- Every class has a representative, and no other class has one. -/
theorem classes_representatives (values : List Value) :
    classes (representatives values) = classes values := by
  induction values using List.reverseRecOn with
  | nil => rfl
  | append_singleton values v ih =>
    rw [representatives_concat, classes_concat, ← ih]
    split
    · next old =>
      rw [any_same_iff, ← List.mem_toFinset] at old
      exact (Finset.insert_eq_of_mem old).symm
    · exact classes_concat (representatives values) v

/-- A list holds as many different values as there are classes. -/
theorem countDistinct_eq_card_classes (values : List Value) :
    countDistinct values = (classes values).card :=
  length_eq_card_classes (nodup_representatives values) (classes_representatives values)

end Value

end RelCalc
