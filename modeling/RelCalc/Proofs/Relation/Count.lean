/-
  `Proofs.Relation.Count`: how many cells of a table are set.

  The cells of a table stand for pairs of elements of the two reference sets, different
  cells for different pairs.  So the table of a relation has as many set cells as the
  relation has pairs between these sets; where all of its pairs are, the table keeps
  them all.
-/
import Mathlib.Data.List.ProdSigma
import RelCalc.Proofs.Relation.Between

set_option autoImplicit false

namespace RelCalc

namespace Table

variable {n m : Nat}

/-- How many cells of a table are set, added up row by row. -/
def setCells (t : Table n m) : Nat := total ((List.finRange n).map t.rowSum)

/-- The positions of all cells. -/
def positions (n m : Nat) : List (Fin n × Fin m) := List.finRange n ×ˢ List.finRange m

theorem nodup_positions (n m : Nat) : (positions n m).Nodup :=
  (List.nodup_finRange n).product (List.nodup_finRange m)

theorem mem_positions (position : Fin n × Fin m) : position ∈ positions n m :=
  List.pair_mem_product.mpr ⟨List.mem_finRange _, List.mem_finRange _⟩

/-- The rows together have as many set cells as there are positions of set cells. -/
theorem setCells_eq_length_filter (t : Table n m) :
    t.setCells = ((positions n m).filter fun position => t.cell position.1 position.2).length := by
  have row (i : Fin n) : t.rowSum i =
      ((List.finRange m).map (Prod.mk i)).countP fun position => t.cell position.1 position.2 := by
    rw [rowSum, total_map_toNat, List.countP_map]
    rfl
  rw [← List.countP_eq_length_filter, setCells, List.map_congr_left fun i _ => row i]
  exact (List.countP_flatMap (l := List.finRange n)).symm

end Table

namespace Relation

open Table

variable {α β : Type} {r : FinSet (α × β)} {rows : FinSet α} {columns : FinSet β}

/-- The pair that a cell stands for. -/
def pairAt (rows : FinSet α) (columns : FinSet β) (position : Fin rows.size × Fin columns.size) :
    α × β := (rows.get position.1, columns.get position.2)

/-- Different cells stand for different pairs. -/
theorem pairAt_injective (rows : FinSet α) (columns : FinSet β) :
    Function.Injective (pairAt rows columns) := by
  rintro ⟨i, j⟩ ⟨i', j'⟩ same
  obtain ⟨sameRow, sameColumn⟩ := Prod.mk.inj same
  exact Prod.ext (FinSet.get_inj.mp sameRow) (FinSet.get_inj.mp sameColumn)

/-- The pairs between two sets are those that cells stand for. -/
theorem exists_pairAt_iff {pair : α × β} :
    (∃ position, pairAt rows columns position = pair) ↔ pair.1 ∈ rows ∧ pair.2 ∈ columns := by
  constructor
  · rintro ⟨⟨i, j⟩, rfl⟩
    exact ⟨List.get_mem rows.toList i, List.get_mem columns.toList j⟩
  · rintro ⟨first, second⟩
    obtain ⟨i, hi⟩ := List.mem_iff_get.mp (FinSet.mem_def.mp first)
    obtain ⟨j, hj⟩ := List.mem_iff_get.mp (FinSet.mem_def.mp second)
    exact ⟨(i, j), Prod.ext hi hj⟩

variable [DecidableEq α] [DecidableEq β]

/-- The set cells of the table of a relation stand for its pairs between the two sets. -/
theorem perm_pairs_of_setCells (r : FinSet (α × β)) (rows : FinSet α) (columns : FinSet β) :
    (((positions rows.size columns.size).filter fun position =>
      (table r rows columns).cell position.1 position.2).map (pairAt rows columns)).Perm
        (between r rows columns).toList := by
  have distinct := ((nodup_positions rows.size columns.size).filter fun position =>
    (table r rows columns).cell position.1 position.2).map (pairAt_injective rows columns)
  refine (List.perm_ext_iff_of_nodup distinct (between r rows columns).nodup).mpr fun pair => ?_
  simp only [List.mem_map, List.mem_filter, mem_positions, true_and, cell_table,
    decide_eq_true_eq, ← FinSet.mem_def, mem_between]
  constructor
  · rintro ⟨position, inside, rfl⟩
    exact ⟨inside, exists_pairAt_iff.mp ⟨position, rfl⟩⟩
  · rintro ⟨inside, components⟩
    obtain ⟨position, rfl⟩ := exists_pairAt_iff.mpr components
    exact ⟨position, inside, rfl⟩

/-- A table has as many set cells as the relation has pairs between the two sets. -/
theorem setCells_table (r : FinSet (α × β)) (rows : FinSet α) (columns : FinSet β) :
    (table r rows columns).setCells = (between r rows columns).size := by
  show _ = (between r rows columns).toList.length
  rw [setCells_eq_length_filter, ← (perm_pairs_of_setCells r rows columns).length_eq,
    List.length_map]

/-- A table over sets that all pairs lie between has a set cell for each pair. -/
theorem setCells_table_of_between (inside : ∀ pair ∈ r, pair.1 ∈ rows ∧ pair.2 ∈ columns) :
    (table r rows columns).setCells = r.size := by
  rw [setCells_table, between_eq_self inside]

end Relation

end RelCalc
