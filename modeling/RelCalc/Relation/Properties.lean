/-
  `Relation.Properties`: the predicates of relations, decided on tables.

  Five predicates look at the square table of a relation over a ground set; three
  look at the rectangular table over two given sets.  Each reads its answer off
  the table, so pairs outside the reference sets never count.  The elements may
  be of any type.
-/
import RelCalc.Relation.Table

set_option autoImplicit false

namespace RelCalc.Relation

variable {α β : Type} [DecidableEq α] [DecidableEq β]

/-! ## Over a ground set -/

/-- Every element of the ground set is related to itself. -/
def reflexive (ground : FinSet α) (r : FinSet (α × α)) : Bool :=
  (table r ground ground).hasFullDiagonal

/-- Related elements are related both ways. -/
def symmetric (ground : FinSet α) (r : FinSet (α × α)) : Bool :=
  (table r ground ground).isSymmetric

/-- Different elements are never related both ways. -/
def antisymmetric (ground : FinSet α) (r : FinSet (α × α)) : Bool :=
  (table r ground ground).isAntisymmetric

/-- What two steps reach, one step reaches. -/
def transitive (ground : FinSet α) (r : FinSet (α × α)) : Bool :=
  (table r ground ground).isTransitive

/-- Every element is related to at most one. -/
def isFunction (ground : FinSet α) (r : FinSet (α × α)) : Bool :=
  (table r ground ground).rowsAtMostOne

/-! ## Between two sets -/

/-- A function, and no two elements are related to the same one. -/
def injective (r : FinSet (α × β)) (source : FinSet α) (target : FinSet β) : Bool :=
  (table r source target).rowsAtMostOne && (table r source target).columnsAtMostOne

/-- A function, and every element of the target is reached. -/
def surjective (r : FinSet (α × β)) (source : FinSet α) (target : FinSet β) : Bool :=
  (table r source target).rowsAtMostOne && (table r source target).columnsAtLeastOne

/-- Injective and surjective. -/
def bijective (r : FinSet (α × β)) (source : FinSet α) (target : FinSet β) : Bool :=
  injective r source target && surjective r source target

end RelCalc.Relation
