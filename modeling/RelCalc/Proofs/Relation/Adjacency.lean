/-
  `Proofs.Relation.Adjacency`: the table of a relation is its adjacency table.

  The table can be made pair by pair: each pair of the relation sets the cell at the positions
  of its components, if the reference sets have both, and touches no other.  After all pairs the
  set cells are those of the relation, one for each pair between the two sets.  A cell stands for
  a pair of elements, wherever these are listed: so the relation turned round has the table with
  rows and columns exchanged, and sets in another order have a table in this order.
-/
import Mathlib.Data.List.NodupEquivFin
import RelCalc.Proofs.Relation.Count

set_option autoImplicit false

namespace RelCalc

/-! ## Tables -/

namespace Table

variable {n m : Nat}

/-- Tables with the same cells are the same. -/
theorem ext {t t' : Table n m} (same : ∀ i j, t.cell i j = t'.cell i j) : t = t' := by
  have cells : t.cells = t'.cells := by
    apply Vector.ext
    intro i hi
    apply Vector.ext
    intro j hj
    exact same ⟨i, hi⟩ ⟨j, hj⟩
  cases t
  cases t'
  cases cells
  rfl

/-- A table has one list of cells for each row, with one cell for each column. -/
theorem length_rows (t : Table n m) : t.rows.length = n ∧ ∀ row ∈ t.rows, row.length = m := by
  refine ⟨by rw [rows, List.length_map, Vector.length_toList], fun row member => ?_⟩
  obtain ⟨cells, -, rfl⟩ := List.mem_map.mp member
  exact Vector.length_toList

/-- The table without set cells. -/
def blank (n m : Nat) : Table n m := ⟨Vector.replicate n (Vector.replicate m false)⟩

@[simp] theorem cell_blank (i : Fin n) (j : Fin m) : (blank n m).cell i j = false := by
  simp [cell, blank]

/-- A table with one more cell set. -/
def mark (t : Table n m) (i : Fin n) (j : Fin m) : Table n m :=
  ⟨t.cells.set i ((getElem t.cells (i : Nat) i.isLt).set j true j.isLt) i.isLt⟩

/-- Only the cell that is set changes. -/
theorem cell_mark (t : Table n m) (i i' : Fin n) (j j' : Fin m) :
    (t.mark i j).cell i' j' = (t.cell i' j' || decide (i = i' ∧ j = j')) := by
  by_cases sameRow : i = i'
  · subst sameRow
    by_cases sameColumn : j = j'
    · simp [cell, mark, sameColumn]
    · have different : (j : Nat) ≠ j' := Fin.val_ne_of_ne sameColumn
      simp [cell, mark, sameColumn, Vector.getElem_set_ne, different]
  · have different : (i : Nat) ≠ i' := Fin.val_ne_of_ne sameRow
    simp [cell, mark, sameRow, Vector.getElem_set_ne, different]

/-- The table with rows and columns exchanged. -/
def transpose (t : Table n m) : Table m n :=
  ⟨Vector.ofFn fun j => Vector.ofFn fun i => t.cell i j⟩

@[simp] theorem cell_transpose (t : Table n m) (i : Fin n) (j : Fin m) :
    t.transpose.cell j i = t.cell i j := by
  simp [cell, transpose]

end Table

/-! ## Positions -/

namespace FinSet

variable {α : Type} [DecidableEq α] {s t : FinSet α}

/-- The position of an element. -/
def position? (s : FinSet α) (a : α) : Option (Fin s.size) := s.toList.finIdxOf? a

theorem position?_eq_some_iff {a : α} {i : Fin s.size} : s.position? a = some i ↔ s.get i = a := by
  constructor
  · intro found
    exact (List.finIdxOf?_eq_some_iff.mp found).1
  · intro held
    refine List.finIdxOf?_eq_some_iff.mpr ⟨held, fun j before same => ?_⟩
    exact before.ne (get_inj.mp (same.trans held.symm))

/-- The positions of the same elements in another order. -/
def reposition (same : ∀ a, a ∈ t ↔ a ∈ s) : Fin t.size ≃ Fin s.size :=
  (t.nodup.getEquiv t.toList).trans
    ((Equiv.subtypeEquivRight same).trans (s.nodup.getEquiv s.toList).symm)

/-- The same element stands at both positions. -/
theorem get_reposition (same : ∀ a, a ∈ t ↔ a ∈ s) (i : Fin t.size) :
    s.get (reposition same i) = t.get i := by
  have inside : t.get i ∈ s.toList := (same _).mp (List.get_mem t.toList i)
  exact congrArg Subtype.val ((s.nodup.getEquiv s.toList).apply_symm_apply ⟨t.get i, inside⟩)

end FinSet

/-! ## The table of a relation -/

namespace Relation

open Table

section Filling

variable {α β : Type} [DecidableEq α] [DecidableEq β] {rows : FinSet α} {columns : FinSet β}

/-- Enter a pair in a table: set the cell at the positions of its components, if both have one. -/
def enter (t : Table rows.size columns.size) (pair : α × β) : Table rows.size columns.size :=
  match rows.position? pair.1, columns.position? pair.2 with
  | some i, some j => t.mark i j
  | _, _ => t

/-- A pair that is entered sets the cell that stands for it, and no other. -/
theorem cell_enter (t : Table rows.size columns.size) (pair : α × β) (i : Fin rows.size)
    (j : Fin columns.size) :
    (enter t pair).cell i j = (t.cell i j || decide (pairAt rows columns (i, j) = pair)) := by
  have stands : pairAt rows columns (i, j) = pair ↔
      rows.position? pair.1 = some i ∧ columns.position? pair.2 = some j := by
    rw [FinSet.position?_eq_some_iff, FinSet.position?_eq_some_iff]
    exact Prod.ext_iff
  unfold enter
  cases first : rows.position? pair.1 with
  | none => simp [stands, first]
  | some i' =>
    cases second : columns.position? pair.2 with
    | none => simp [stands, second]
    | some j' =>
      rw [cell_mark]
      simp only [stands, first, second, Option.some.injEq]

/-- After some pairs the set cells are those that were set and those that stand for a pair. -/
theorem cell_foldl_enter (pairs : List (α × β)) (t : Table rows.size columns.size)
    (i : Fin rows.size) (j : Fin columns.size) :
    (pairs.foldl enter t).cell i j =
      (t.cell i j || decide (pairAt rows columns (i, j) ∈ pairs)) := by
  induction pairs generalizing t with
  | nil => simp
  | cons pair rest ih =>
    rw [List.foldl_cons, ih, cell_enter, Bool.or_assoc]
    simp only [List.mem_cons, Bool.decide_or]

/-- The table that is filled pair by pair. -/
def filledTable (r : FinSet (α × β)) (rows : FinSet α) (columns : FinSet β) :
    Table rows.size columns.size := r.toList.foldl enter (blank _ _)

/-- Filling pair by pair gives the table of the relation. -/
theorem filledTable_eq (r : FinSet (α × β)) (rows : FinSet α) (columns : FinSet β) :
    filledTable r rows columns = table r rows columns := by
  apply Table.ext
  intro i j
  rw [filledTable, cell_foldl_enter, cell_blank, Bool.false_or, cell_table]
  exact decide_eq_decide.mpr Iff.rfl

/-- Sets in another order have the same cells at other positions. -/
theorem cell_table_reposition (r : FinSet (α × β)) {rows' : FinSet α} {columns' : FinSet β}
    (sameRows : ∀ a, a ∈ rows' ↔ a ∈ rows) (sameColumns : ∀ b, b ∈ columns' ↔ b ∈ columns)
    (i : Fin rows'.size) (j : Fin columns'.size) :
    (table r rows' columns').cell i j = (table r rows columns).cell
      (FinSet.reposition sameRows i) (FinSet.reposition sameColumns j) := by
  rw [cell_table, cell_table, FinSet.get_reposition, FinSet.get_reposition]

end Filling

/-- A relation turned round has the table with rows and columns exchanged. -/
theorem table_converse (r : Relation) (rows columns : FinSet Element) :
    table r.converse columns rows = (table r rows columns).transpose := by
  apply Table.ext
  intro j i
  rw [cell_transpose, cell_table, cell_table]
  simp only [mem_converse]

/-- **The table of a relation is its exact adjacency table.**  Without a set for the columns these
are the rows.  The table is what filling it pair by pair gives; it has a row for each element of the
one set and a column for each element of the other; a cell is set when its pair is in the relation,
and there are as many set cells as pairs between the two sets.  The relation turned round has the
transposed table, and the same sets in another order have the same cells, moved with their elements.
-/
theorem table_isAdjacency (r : Relation) (rows : FinSet Element)
    (columns? : Option (FinSet Element)) :
    let columns := columns?.getD rows
    filledTable r rows columns = table r rows columns ∧
    ((table r rows columns).rows.length = rows.size ∧
      ∀ row ∈ (table r rows columns).rows, row.length = columns.size) ∧
    (∀ i j, (table r rows columns).cell i j = true ↔ (rows.get i, columns.get j) ∈ r) ∧
    (table r rows columns).setCells =
      (r.toList.filter fun pair => pair.1 ∈ rows ∧ pair.2 ∈ columns).length ∧
    table r.converse columns rows = (table r rows columns).transpose ∧
    ∀ rows' columns' : FinSet Element,
      rows'.toList.Perm rows.toList → columns'.toList.Perm columns.toList →
        ∃ (σ : Fin rows'.size ≃ Fin rows.size) (τ : Fin columns'.size ≃ Fin columns.size),
          (∀ i, rows.get (σ i) = rows'.get i) ∧ (∀ j, columns.get (τ j) = columns'.get j) ∧
            ∀ i j, (table r rows' columns').cell i j =
              (table r rows columns).cell (σ i) (τ j) := by
  intro columns
  refine ⟨filledTable_eq r rows columns, length_rows _, fun i j => ?_,
    setCells_table r rows columns, table_converse r rows columns,
    fun rows' columns' permRows permColumns => ?_⟩
  · rw [cell_table, decide_eq_true_eq]
  · have sameRows : ∀ a, a ∈ rows' ↔ a ∈ rows := fun a => permRows.mem_iff
    have sameColumns : ∀ b, b ∈ columns' ↔ b ∈ columns := fun b => permColumns.mem_iff
    exact ⟨FinSet.reposition sameRows, FinSet.reposition sameColumns,
      FinSet.get_reposition sameRows, FinSet.get_reposition sameColumns,
      cell_table_reposition r sameRows sameColumns⟩

/-- Two of four pairs lie between the two sets, and one lies between the rows alone; with both sets
in another order the table has the same two cells set, moved with their elements. -/
theorem table_isAdjacency_reordered :
    let r : Relation := FinSet.ofList [("a", "b"), ("b", "c"), ("a", "z"), ("z", "c")]
    let rows : FinSet Element := FinSet.ofList ["a", "b"]
    let columns : FinSet Element := FinSet.ofList ["x", "c", "b"]
    let rows' : FinSet Element := FinSet.ofList ["b", "a"]
    let columns' : FinSet Element := FinSet.ofList ["b", "x", "c"]
    rows'.toList.Perm rows.toList ∧ columns'.toList.Perm columns.toList ∧
      (table r rows columns).rows = [[false, false, true], [false, true, false]] ∧
        (table r rows columns).setCells = 2 ∧ (table r rows rows).setCells = 1 ∧
          (table r.converse columns rows).rows = [[false, false], [false, true], [true, false]] ∧
            ∃ (σ : Fin rows'.size ≃ Fin rows.size) (τ : Fin columns'.size ≃ Fin columns.size),
              ∀ i j, (table r rows' columns').cell i j =
                (table r rows columns).cell (σ i) (τ j) := by
  intro r rows columns rows' columns'
  have permRows : rows'.toList.Perm rows.toList := by decide +kernel
  have permColumns : columns'.toList.Perm columns.toList := by decide +kernel
  obtain ⟨filled, -, -, count, turned, moved⟩ := table_isAdjacency r rows (some columns)
  obtain ⟨-, -, -, square, -⟩ := table_isAdjacency r rows none
  obtain ⟨σ, τ, -, -, same⟩ := moved rows' columns' permRows permColumns
  refine ⟨permRows, permColumns, ?_, count.trans (by decide +kernel),
    square.trans (by decide +kernel), ?_, σ, τ, same⟩
  · exact (congrArg Table.rows filled).symm.trans (by decide +kernel)
  · exact (congrArg Table.rows turned).trans (by decide +kernel)

end Relation

end RelCalc
