/-
  `Proofs.Relation.Predicates`: what the tests on tables decide.

  The predicates of relations count cells.  Here each of them is read as a statement
  about elements and pairs, with no table in it.  There are two steps: a count at
  most one, or at least one, is a statement about the things counted; and a statement
  about the positions of a set is one about its elements.
-/
import Mathlib.Data.List.FinRange
import RelCalc.Relation.Properties

set_option autoImplicit false

namespace RelCalc

/-! ## Counts -/

namespace Table

section Count

variable {α : Type} {test : α → Bool} {entries : List α}

/-- Adding up truth values counts those that are true. -/
theorem total_map_toNat (test : α → Bool) (entries : List α) :
    total (entries.map fun x => (test x).toNat) = entries.countP test := by
  induction entries with
  | nil => rfl
  | cons x rest ih =>
    rw [List.map_cons, total_cons, ih, List.countP_cons, Nat.add_comm]
    cases test x <;> rfl

/-- Of different entries at most one passes a test when any two that pass are the same. -/
theorem countP_le_one_iff (distinct : entries.Nodup) :
    entries.countP test ≤ 1 ↔
      ∀ x ∈ entries, ∀ y ∈ entries, test x = true → test y = true → x = y := by
  induction entries with
  | nil => simp
  | cons first rest ih =>
    obtain ⟨fresh, distinct⟩ := List.nodup_cons.mp distinct
    by_cases passes : test first = true
    · rw [List.countP_cons_of_pos passes, Nat.add_one_le_iff, Nat.lt_one_iff, List.countP_eq_zero]
      constructor
      · intro none x hx y hy passesX passesY
        rcases List.mem_cons.mp hx with rfl | insideX
        · rcases List.mem_cons.mp hy with rfl | insideY
          · rfl
          · exact absurd passesY (none y insideY)
        · exact absurd passesX (none x insideX)
      · intro one y inside passesY
        have same := one first (by simp) y (by simp [inside]) passes passesY
        exact fresh (same ▸ inside)
    · rw [List.countP_cons_of_neg passes, ih distinct]
      constructor
      · intro one x hx y hy passesX passesY
        rcases List.mem_cons.mp hx with rfl | insideX
        · exact absurd passesX passes
        · rcases List.mem_cons.mp hy with rfl | insideY
          · exact absurd passesY passes
          · exact one x insideX y insideY passesX passesY
      · intro one x hx y hy
        exact one x (by simp [hx]) y (by simp [hy])

end Count

section Sums

variable {n m : Nat}

/-- A row with at most one set cell sets no two columns. -/
theorem rowsAtMostOne_iff (t : Table n m) :
    t.rowsAtMostOne = true ↔
      ∀ i j j', t.cell i j = true → t.cell i j' = true → j = j' := by
  simp only [rowsAtMostOne, everyRow_iff, decide_eq_true_eq, rowSum, total_map_toNat,
    countP_le_one_iff (List.nodup_finRange m), List.mem_finRange, forall_const]

/-- How many of some rows have a column set is a count. -/
theorem countSet_eq_countP (t : Table n m) (rows : List (Fin n)) (j : Fin m) :
    t.countSet rows j = rows.countP fun k => t.cell k j :=
  total_map_toNat _ _

/-- A column with at most one set cell is set in no two rows. -/
theorem columnsAtMostOne_iff (t : Table n m) :
    t.columnsAtMostOne = true ↔
      ∀ j i i', t.cell i j = true → t.cell i' j = true → i = i' := by
  simp only [columnsAtMostOne, everyRow_iff, decide_eq_true_eq, columnSum, countSet_eq_countP,
    countP_le_one_iff (List.nodup_finRange n), List.mem_finRange, forall_const]

/-- A column with at least one set cell is set in some row. -/
theorem columnsAtLeastOne_iff (t : Table n m) :
    t.columnsAtLeastOne = true ↔ ∀ j, ∃ i, t.cell i j = true := by
  simp only [columnsAtLeastOne, everyRow_iff, decide_eq_true_eq, columnSum, countSet_eq_countP,
    Nat.one_le_iff_ne_zero, ← Nat.pos_iff_ne_zero, List.countP_pos_iff, List.mem_finRange,
    true_and]

/-- A two-step path leads to a cell when some row in between is set on both sides. -/
theorem twoSteps_pos_iff (t : Table n n) (i j : Fin n) :
    0 < t.twoSteps i j ↔ ∃ k, t.cell i k = true ∧ t.cell k j = true := by
  simp [twoSteps, countSet_eq_countP, List.countP_pos_iff, columnsSet]

end Sums

end Table

/-! ## Positions and elements -/

namespace FinSet

variable {α : Type} {s : FinSet α}

/-- What holds at every position holds of every element. -/
theorem forall_get_iff {P : α → Prop} : (∀ i : Fin s.size, P (s.get i)) ↔ ∀ a ∈ s, P a := by
  constructor
  · intro h a inside
    obtain ⟨i, rfl⟩ := List.mem_iff_get.mp (mem_def.mp inside)
    exact h i
  · exact fun h i => h (s.get i) (List.get_mem s.toList i)

/-- What holds at some position holds of some element. -/
theorem exists_get_iff {P : α → Prop} : (∃ i : Fin s.size, P (s.get i)) ↔ ∃ a ∈ s, P a := by
  constructor
  · rintro ⟨i, h⟩
    exact ⟨s.get i, List.get_mem s.toList i, h⟩
  · rintro ⟨a, inside, h⟩
    obtain ⟨i, rfl⟩ := List.mem_iff_get.mp (mem_def.mp inside)
    exact ⟨i, h⟩

/-- Different positions hold different elements. -/
theorem get_inj {i j : Fin s.size} : s.get i = s.get j ↔ i = j := s.nodup.get_inj_iff

end FinSet

/-! ## The predicates -/

namespace Relation

section Ground

variable {α : Type} [DecidableEq α] {ground : FinSet α} {r : FinSet (α × α)}

/-- Every element is related to itself. -/
theorem reflexive_iff : reflexive ground r = true ↔ ∀ a ∈ ground, (a, a) ∈ r := by
  simp only [reflexive, Table.hasFullDiagonal, Table.everyRow_iff, cell_table, decide_eq_true_eq]
  exact FinSet.forall_get_iff (P := fun a => (a, a) ∈ r)

/-- Related elements are related both ways. -/
theorem symmetric_iff :
    symmetric ground r = true ↔ ∀ a ∈ ground, ∀ b ∈ ground, (a, b) ∈ r → (b, a) ∈ r := by
  simp only [symmetric, Table.isSymmetric, Table.everyCell_iff, cell_table, Bool.or_eq_true,
    Bool.not_eq_true', decide_eq_false_iff_not, decide_eq_true_eq, ← imp_iff_not_or]
  simp only [← FinSet.forall_get_iff (s := ground)]

/-- Elements that are related both ways are the same. -/
theorem antisymmetric_iff :
    antisymmetric ground r = true ↔
      ∀ a ∈ ground, ∀ b ∈ ground, (a, b) ∈ r → (b, a) ∈ r → a = b := by
  simp only [antisymmetric, Table.isAntisymmetric, Table.everyCell_iff, cell_table,
    Bool.not_eq_true', Bool.and_eq_false_iff, decide_eq_false_iff_not, ne_eq, not_not, or_assoc]
  simp only [← FinSet.forall_get_iff (s := ground), FinSet.get_inj]
  simp only [imp_iff_not_or]

/-- What two steps reach, one step reaches. -/
theorem transitive_iff :
    transitive ground r = true ↔
      ∀ a ∈ ground, ∀ b ∈ ground, ∀ c ∈ ground, (a, b) ∈ r → (b, c) ∈ r → (a, c) ∈ r := by
  simp only [transitive, Table.isTransitive_eq, Table.everyCell_iff, Bool.not_eq_true',
    Bool.and_eq_false_iff, decide_eq_false_iff_not, Bool.not_eq_false', Table.twoSteps_pos_iff,
    cell_table, decide_eq_true_eq, ← imp_iff_not_or]
  simp only [← FinSet.forall_get_iff (s := ground)]
  constructor
  · intro h a b c hab hbc
    exact h a c ⟨b, hab, hbc⟩
  · rintro h a c ⟨b, hab, hbc⟩
    exact h a b c hab hbc

/-- No element is related to two. -/
theorem isFunction_iff :
    isFunction ground r = true ↔
      ∀ a ∈ ground, ∀ b ∈ ground, ∀ c ∈ ground, (a, b) ∈ r → (a, c) ∈ r → b = c := by
  simp only [isFunction, Table.rowsAtMostOne_iff, cell_table, decide_eq_true_eq]
  simp only [← FinSet.forall_get_iff (s := ground), FinSet.get_inj]

/-! ### The relation between elements of the ground set -/

/-- Two elements of the ground set are related. -/
def Related (ground : FinSet α) (r : FinSet (α × α)) (a b : α) : Prop :=
  a ∈ ground ∧ b ∈ ground ∧ (a, b) ∈ r

theorem reflexive_iff_related :
    reflexive ground r = true ↔ ∀ a ∈ ground, Related ground r a a := by
  rw [reflexive_iff]
  constructor
  · intro h a ha
    exact ⟨ha, ha, h a ha⟩
  · intro h a ha
    exact (h a ha).2.2

theorem symmetric_iff_related :
    symmetric ground r = true ↔ ∀ a b, Related ground r a b → Related ground r b a := by
  rw [symmetric_iff]
  constructor
  · rintro h a b ⟨ha, hb, hab⟩
    exact ⟨hb, ha, h a ha b hb hab⟩
  · intro h a ha b hb hab
    exact (h a b ⟨ha, hb, hab⟩).2.2

theorem antisymmetric_iff_related :
    antisymmetric ground r = true ↔
      ∀ a b, Related ground r a b → Related ground r b a → a = b := by
  rw [antisymmetric_iff]
  constructor
  · rintro h a b ⟨ha, hb, hab⟩ ⟨-, -, hba⟩
    exact h a ha b hb hab hba
  · intro h a ha b hb hab hba
    exact h a b ⟨ha, hb, hab⟩ ⟨hb, ha, hba⟩

theorem transitive_iff_related :
    transitive ground r = true ↔
      ∀ a b c, Related ground r a b → Related ground r b c → Related ground r a c := by
  rw [transitive_iff]
  constructor
  · rintro h a b c ⟨ha, hb, hab⟩ ⟨-, hc, hbc⟩
    exact ⟨ha, hc, h a ha b hb c hc hab hbc⟩
  · intro h a ha b hb c hc hab hbc
    exact (h a b c ⟨ha, hb, hab⟩ ⟨hb, hc, hbc⟩).2.2

theorem isFunction_iff_related :
    isFunction ground r = true ↔
      ∀ a b c, Related ground r a b → Related ground r a c → b = c := by
  rw [isFunction_iff]
  constructor
  · rintro h a b c ⟨ha, hb, hab⟩ ⟨-, hc, hac⟩
    exact h a ha b hb c hc hab hac
  · intro h a ha b hb c hc hab hac
    exact h a b c ⟨ha, hb, hab⟩ ⟨ha, hc, hac⟩

/-- **The tests on the square table decide properties of the relation.**  Each of the five holds
exactly when the relation between elements of the ground set has the property it is named for.  So
pairs with a component outside play no part: relations that relate the same elements of the ground
set pass the same tests. -/
theorem groundTests_iff_related (ground : FinSet α) (r : FinSet (α × α)) :
    (reflexive ground r = true ↔ ∀ a ∈ ground, Related ground r a a) ∧
    (symmetric ground r = true ↔ ∀ a b, Related ground r a b → Related ground r b a) ∧
    (antisymmetric ground r = true ↔
      ∀ a b, Related ground r a b → Related ground r b a → a = b) ∧
    (transitive ground r = true ↔
      ∀ a b c, Related ground r a b → Related ground r b c → Related ground r a c) ∧
    (isFunction ground r = true ↔
      ∀ a b c, Related ground r a b → Related ground r a c → b = c) ∧
    ∀ r' : FinSet (α × α), (∀ a b, Related ground r' a b ↔ Related ground r a b) →
      reflexive ground r' = reflexive ground r ∧ symmetric ground r' = symmetric ground r ∧
        antisymmetric ground r' = antisymmetric ground r ∧
          transitive ground r' = transitive ground r ∧
            isFunction ground r' = isFunction ground r := by
  refine ⟨reflexive_iff_related, symmetric_iff_related, antisymmetric_iff_related,
    transitive_iff_related, isFunction_iff_related, fun r' same => ?_⟩
  refine ⟨?_, ?_, ?_, ?_, ?_⟩
  · rw [Bool.eq_iff_iff, reflexive_iff_related, reflexive_iff_related]
    simp only [same]
  · rw [Bool.eq_iff_iff, symmetric_iff_related, symmetric_iff_related]
    simp only [same]
  · rw [Bool.eq_iff_iff, antisymmetric_iff_related, antisymmetric_iff_related]
    simp only [same]
  · rw [Bool.eq_iff_iff, transitive_iff_related, transitive_iff_related]
    simp only [same]
  · rw [Bool.eq_iff_iff, isFunction_iff_related, isFunction_iff_related]
    simp only [same]

/-- A chain on three elements, and the same chain with loops through a fourth, which is not in the
ground set.  With these loops it is not transitive or antisymmetric; over the ground set it is both,
but no function. -/
theorem groundTests_iff_related_outsider :
    let ground : FinSet Element := FinSet.ofList ["a", "b", "c"]
    let chain : Relation := FinSet.ofList [("a", "b"), ("b", "c"), ("a", "c")]
    let looped : Relation :=
      FinSet.ofList [("z", "a"), ("a", "b"), ("b", "c"), ("b", "z"), ("a", "c"), ("z", "b")]
    (∀ a b, Related ground looped a b ↔ Related ground chain a b) ∧
      transitive ground looped = true ∧ antisymmetric ground looped = true ∧
        isFunction ground looped = false ∧
          ¬ ∀ a b c, Related ground looped a b → Related ground looped a c → b = c := by
  intro ground chain looped
  have inside : ∀ a ∈ ground.toList, ∀ b ∈ ground.toList, ((a, b) ∈ looped ↔ (a, b) ∈ chain) := by
    decide +kernel
  have same : ∀ a b, Related ground looped a b ↔ Related ground chain a b := fun a b =>
    and_congr_right fun ha => and_congr_right fun hb => inside a ha b hb
  obtain ⟨-, -, -, -, function, others⟩ := groundTests_iff_related ground looped
  obtain ⟨-, -, antisymmetric, transitive, isFunction⟩ :=
    (groundTests_iff_related ground chain).2.2.2.2.2 looped same
  have several : Relation.isFunction ground looped = false := isFunction.trans (by decide +kernel)
  refine ⟨same, transitive.trans (by decide +kernel), antisymmetric.trans (by decide +kernel),
    several, ?_⟩
  rw [← function, several]
  exact Bool.false_ne_true

end Ground

section Between

variable {α β : Type} [DecidableEq α] [DecidableEq β] {r : FinSet (α × β)} {source : FinSet α}
  {target : FinSet β}

/-- No two pairs between the sets share a component. -/
theorem injective_iff :
    injective r source target = true ↔
      (∀ a ∈ source, ∀ b ∈ target, ∀ c ∈ target, (a, b) ∈ r → (a, c) ∈ r → b = c) ∧
        ∀ c ∈ target, ∀ a ∈ source, ∀ b ∈ source, (a, c) ∈ r → (b, c) ∈ r → a = b := by
  simp only [injective, Bool.and_eq_true, Table.rowsAtMostOne_iff, Table.columnsAtMostOne_iff,
    cell_table, decide_eq_true_eq]
  simp only [← FinSet.forall_get_iff (s := source), ← FinSet.forall_get_iff (s := target),
    FinSet.get_inj]

/-- No two pairs between the sets share a first component, and every element of the target is a
second component. -/
theorem surjective_iff :
    surjective r source target = true ↔
      (∀ a ∈ source, ∀ b ∈ target, ∀ c ∈ target, (a, b) ∈ r → (a, c) ∈ r → b = c) ∧
        ∀ b ∈ target, ∃ a ∈ source, (a, b) ∈ r := by
  simp only [surjective, Bool.and_eq_true, Table.rowsAtMostOne_iff, Table.columnsAtLeastOne_iff,
    cell_table, decide_eq_true_eq]
  simp only [← FinSet.forall_get_iff (s := source), ← FinSet.forall_get_iff (s := target),
    ← FinSet.exists_get_iff (s := source), FinSet.get_inj]

end Between

end Relation

end RelCalc
