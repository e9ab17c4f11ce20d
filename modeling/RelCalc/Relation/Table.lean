/-
  `Relation.Table`: adjacency tables.

  A table of a relation has a row for every element of one reference set and a
  column for every element of another; a cell is set when the pair of its row
  and its column is in the relation.  Pairs outside the two sets leave no trace.
  The tests on tables are numeric: they count the set cells of a row or a column
  and compare two-step paths, the integer square of the table, with the table.
-/
import RelCalc.Relation.Basic

set_option autoImplicit false

namespace RelCalc

/-- A table of Booleans with `n` rows and `m` columns. -/
structure Table (n m : Nat) where
  cells : Vector (Vector Bool m) n
  deriving DecidableEq

namespace Table

variable {n m : Nat}

/-- The cell in a row and a column. -/
def cell (t : Table n m) (i : Fin n) (j : Fin m) : Bool := t.cells[i][j]

/-- The rows of a table from top to bottom, each from left to right. -/
def rows (t : Table n m) : List (List Bool) := t.cells.toList.map Vector.toList

/-- The sum of some counts. -/
def total (counts : List Nat) : Nat := counts.foldr (· + ·) 0

@[simp] theorem total_nil : total [] = 0 := rfl

@[simp] theorem total_cons (count : Nat) (rest : List Nat) :
    total (count :: rest) = count + total rest := rfl

/-- How many cells of a row are set. -/
def rowSum (t : Table n m) (i : Fin n) : Nat :=
  total ((List.finRange m).map fun j => (t.cell i j).toNat)

/-- The columns that are set in a row. -/
def columnsSet (t : Table n m) (i : Fin n) : List (Fin m) := (List.finRange m).filter (t.cell i)

/-- How many of some rows have a column set. -/
def countSet (t : Table n m) (rows : List (Fin n)) (j : Fin m) : Nat :=
  total (rows.map fun k => (t.cell k j).toNat)

/-- How many cells of a column are set. -/
def columnSum (t : Table n m) (j : Fin m) : Nat := t.countSet (List.finRange n) j

/-- How many two-step paths lead from a row to a column: an entry of the square of the
table, in which only the columns set in the row count. -/
def twoSteps (t : Table n n) (i j : Fin n) : Nat := t.countSet (t.columnsSet i) j

/-- The number of two-step paths is a sum of products, as in the square of a matrix. -/
theorem twoSteps_eq_sum (t : Table n n) (i j : Fin n) :
    t.twoSteps i j =
      total ((List.finRange n).map fun k => (t.cell i k).toNat * (t.cell k j).toNat) := by
  unfold twoSteps countSet columnsSet
  induction List.finRange n with
  | nil => rfl
  | cons k rest ih =>
    by_cases set : t.cell i k = true
    · simp [set, ih]
    · simp [set, ih]

/-- A test that holds of every row. -/
def everyRow (test : Fin n → Bool) : Bool := (List.finRange n).all test

/-- A test that holds of every cell position. -/
def everyCell (test : Fin n → Fin m → Bool) : Bool := everyRow fun i => everyRow fun j => test i j

@[simp] theorem everyRow_iff {test : Fin n → Bool} :
    everyRow test = true ↔ ∀ i, test i = true := by
  simp [everyRow]

@[simp] theorem everyCell_iff {test : Fin n → Fin m → Bool} :
    everyCell test = true ↔ ∀ i j, test i j = true := by
  simp [everyCell]

/-- Every cell on the diagonal is set. -/
def hasFullDiagonal (t : Table n n) : Bool := everyRow fun i => t.cell i i

/-- A set cell is set on the other side of the diagonal too. -/
def isSymmetric (t : Table n n) : Bool := everyCell fun i j => !t.cell i j || t.cell j i

/-- Off the diagonal, no cell is set on both sides. -/
def isAntisymmetric (t : Table n n) : Bool :=
  everyCell fun i j => !(t.cell i j && t.cell j i && decide (i ≠ j))

/-- Wherever a two-step path leads, a cell is set.  The columns set in a row are found once
for the whole row. -/
def isTransitive (t : Table n n) : Bool :=
  everyRow fun i =>
    let middle := t.columnsSet i
    everyRow fun j => !(decide (0 < t.countSet middle j) && !t.cell i j)

/-- The test on every cell counts the two-step paths to it. -/
theorem isTransitive_eq (t : Table n n) :
    t.isTransitive = everyCell fun i j => !(decide (0 < t.twoSteps i j) && !t.cell i j) := rfl

/-- No row has more than one cell set. -/
def rowsAtMostOne (t : Table n m) : Bool := everyRow fun i => decide (t.rowSum i ≤ 1)

/-- No column has more than one cell set. -/
def columnsAtMostOne (t : Table n m) : Bool := everyRow fun j => decide (t.columnSum j ≤ 1)

/-- Every column has a cell set. -/
def columnsAtLeastOne (t : Table n m) : Bool := everyRow fun j => decide (1 ≤ t.columnSum j)

end Table

namespace Relation

variable {α β : Type} [DecidableEq α] [DecidableEq β]

/-- The row of an element in the table over some columns. -/
def row (r : FinSet (α × β)) (a : α) (columns : FinSet β) : Vector Bool columns.size :=
  let related := (r.toList.filter fun pair => pair.1 = a).map Prod.snd
  ⟨(columns.toList.map fun b => decide (b ∈ related)).toArray, by simp [FinSet.size]⟩

/-- The adjacency table of a set of pairs over two reference sets. -/
def table (r : FinSet (α × β)) (rows : FinSet α) (columns : FinSet β) :
    Table rows.size columns.size :=
  ⟨⟨(rows.toList.map fun a => row r a columns).toArray, by
    rw [List.size_toArray, List.length_map, FinSet.size]⟩⟩

/-- A cell is set when the pair of its row and its column is in the relation. -/
@[simp] theorem cell_table (r : FinSet (α × β)) (rows : FinSet α) (columns : FinSet β)
    (i : Fin rows.size) (j : Fin columns.size) :
    (table r rows columns).cell i j = decide ((rows.get i, columns.get j) ∈ r) := by
  simp [Table.cell, table, row, FinSet.get, FinSet.mem_def]
  exact Iff.rfl

end Relation

end RelCalc
