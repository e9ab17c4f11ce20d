/-
  `Relation.Basic`: binary relations as finite sets of ordered pairs.

  A relation keeps its pairs in the order they came in, like every finite set.
  It can be read from a flat list of components, first and second in turn, and
  written back as such a list.
-/
import RelCalc.FinSet.Algebra

set_option autoImplicit false

namespace RelCalc

/-- The elements of sets and the components of pairs are words. -/
abbrev Element : Type := String

/-- A binary relation: a finite set of ordered pairs. -/
abbrev Relation : Type := FinSet (Element × Element)

namespace Relation

/-- Neighbouring components taken two by two; nothing if one is left over. -/
def pairUp? : List Element → Option (List (Element × Element))
  | [] => some []
  | [_] => none
  | first :: second :: rest => (pairUp? rest).map ((first, second) :: ·)

/-- The relation written as a flat list of components, first and second in turn. -/
def ofFlat? (components : List Element) : Option Relation :=
  (pairUp? components).map FinSet.ofList

/-- The components of pairs, first and second in turn. -/
def flatten (pairs : List (Element × Element)) : List Element :=
  pairs.flatMap fun pair => [pair.1, pair.2]

/-- The components of all pairs, first and second in turn. -/
def toFlat (r : Relation) : List Element := flatten r.toList

/-- The relation with every pair turned round. -/
def converse (r : Relation) : Relation := FinSet.ofList (r.toList.map Prod.swap)

/-- The elements of the ground set that come first in some pair, in the order of the ground set. -/
def domain (ground : FinSet Element) (r : Relation) : FinSet Element :=
  ground.filter fun a => a ∈ r.toList.map Prod.fst

/-- The elements of the ground set that come second in some pair, in the order of the ground set. -/
def codomain (ground : FinSet Element) (r : Relation) : FinSet Element :=
  ground.filter fun b => b ∈ r.toList.map Prod.snd

/-- Components taken two by two are the components of the pairs. -/
theorem pairUp?_flatten (pairs : List (Element × Element)) :
    pairUp? (flatten pairs) = some pairs := by
  induction pairs with
  | nil => rfl
  | cons pair rest ih =>
    have step : flatten (pair :: rest) = pair.1 :: pair.2 :: flatten rest := rfl
    simp [step, pairUp?, ih]

/-- Pairs are read off their components. -/
theorem flatten_injective : Function.Injective flatten := by
  intro pairs others same
  have read := pairUp?_flatten pairs
  rw [same, pairUp?_flatten others] at read
  exact (Option.some.inj read).symm

/-- The components of pairs are among their flat list. -/
theorem mem_flatten {pairs : List (Element × Element)} {pair : Element × Element}
    (member : pair ∈ pairs) : pair.1 ∈ flatten pairs ∧ pair.2 ∈ flatten pairs := by
  constructor <;> exact List.mem_flatMap.mpr ⟨pair, member, by simp⟩

/-- Components cannot be taken two by two exactly when their number is odd. -/
theorem pairUp?_eq_none_iff {components : List Element} :
    pairUp? components = none ↔ components.length % 2 = 1 := by
  fun_induction pairUp? components with
  | case1 => simp
  | case2 => simp
  | case3 first second rest ih =>
    simp only [Option.map_eq_none_iff, ih, List.length_cons]
    omega

/-- An odd number of components is not a relation, and only that. -/
theorem ofFlat?_eq_none_iff {components : List Element} :
    ofFlat? components = none ↔ components.length % 2 = 1 := by
  rw [ofFlat?, Option.map_eq_none_iff, pairUp?_eq_none_iff]

/-- A relation is read back from its components, pairs in the same order. -/
theorem ofFlat?_toFlat (r : Relation) : ofFlat? r.toFlat = some r := by
  simp [ofFlat?, toFlat, pairUp?_flatten, FinSet.ofList_toList]

@[simp] theorem mem_converse {r : Relation} {a b : Element} :
    (a, b) ∈ r.converse ↔ (b, a) ∈ r := by
  rw [converse, FinSet.mem_ofList, List.mem_map]
  constructor
  · rintro ⟨⟨x, y⟩, inside, same⟩
    cases same
    exact inside
  · exact fun inside => ⟨(b, a), inside, rfl⟩

@[simp] theorem mem_domain {ground : FinSet Element} {r : Relation} {a : Element} :
    a ∈ domain ground r ↔ a ∈ ground ∧ ∃ b, (a, b) ∈ r := by
  rw [domain, FinSet.mem_filter]
  simp [FinSet.mem_def]

@[simp] theorem mem_codomain {ground : FinSet Element} {r : Relation} {b : Element} :
    b ∈ codomain ground r ↔ b ∈ ground ∧ ∃ a, (a, b) ∈ r := by
  rw [codomain, FinSet.mem_filter]
  simp [FinSet.mem_def]

end Relation

end RelCalc
