/-
  `Operation`: a named routine on values, with the kinds it is typed with.

  An operation says how many operands it takes and of which kinds, and which kind
  of value it gives.  Its routine may also look at the ground set.  The standard
  routines are the operations on sets and relations, applied to lists of values;
  a routine refuses a wrong number of operands and operands it is not made for.
-/
import RelCalc.Fault
import RelCalc.Relation.Properties

set_option autoImplicit false

namespace RelCalc

/-- What routines look at as the ground set: words or, where a relation stands in
place of the ground set, its pairs. -/
inductive Ground where
  | words (elements : FinSet Element)
  | pairs (elements : Relation)
  deriving DecidableEq, Inhabited

namespace Ground

/-- The elements of what stands in place of the ground set.  Truth values, integers and
lines without a value have none. -/
def ofValue : Option Value → Except Fault Ground
  | some (.set elements) => .ok (.words elements)
  | some (.relation elements) => .ok (.pairs elements)
  | some (.bool _) => .error (.noElements "bool")
  | some (.int _) => .error (.noElements "int")
  | none => .error (.noElements "NoneType")

/-- A predicate of a relation of words over the ground set.  No pair is a word, so over
pairs every relation of words is empty. -/
def check (ground : Ground) (r : Relation)
    (test : {α : Type} → [DecidableEq α] → FinSet α → FinSet (α × α) → Bool) : Bool :=
  match ground with
  | words elements => test elements r
  | pairs elements => test elements ∅

/-- A set of words taken from the ground set; there is none to take from pairs. -/
def take (ground : Ground) (part : FinSet Element → FinSet Element) : FinSet Element :=
  match ground with
  | words elements => part elements
  | pairs _ => ∅

end Ground

/-- How a routine is called: its name and the names of its parameters, a ground set first
if it looks at one. -/
structure Signature where
  name : String
  parameters : List String
  /-- More operands may follow. -/
  openEnded : Bool
  deriving DecidableEq, Repr, Inhabited

namespace Signature

/-- Accept a number of operands, one for every parameter. -/
def accept (signature : Signature) (given : Nat) : Except Fault Unit :=
  let expected := signature.parameters.length
  if given < expected then
    .error (.missingOperands signature.name (signature.parameters.drop given))
  else if expected < given ∧ signature.openEnded = false then
    .error (.extraOperands signature.name expected given)
  else .ok ()

end Signature

/-- How a result is computed. -/
inductive Computation where
  /-- From the operands alone. -/
  | plain (compute : List Value → Except Fault Value)
  /-- From the ground set and the operands. -/
  | grounded (compute : Ground → List Value → Except Fault Value)
  deriving Inhabited

/-- A routine on values. -/
structure Routine where
  signature : Signature
  computation : Computation
  deriving Inhabited

namespace Routine

/-- The routine looks at the ground set. -/
def usesGround (routine : Routine) : Bool :=
  match routine.computation with
  | .plain _ => false
  | .grounded _ => true

/-- Compute a result.  What stands in place of the ground set is looked at only if the
routine uses it. -/
def run (routine : Routine) (ground : Option Value) (operands : List Value) :
    Except Fault Value :=
  match routine.computation with
  | .plain compute => do
      routine.signature.accept operands.length
      compute operands
  | .grounded compute => do
      routine.signature.accept (operands.length + 1)
      compute (← Ground.ofValue ground) operands

end Routine

/-- An operation: its name, the kind of value it works on, the kinds of its
operands and of its result, and its routine. -/
structure Operation where
  name : String
  level : Kind
  operands : List Kind
  result : Kind
  routine : Routine
  deriving Inhabited

namespace Operation

/-- The number of operands. -/
def arity (op : Operation) : Nat := op.operands.length

/-- The signature of an operation on one line. -/
def text (op : Operation) : String :=
  op.name ++ "(" ++ Text.joinWith ", " (op.operands.map Kind.name) ++ ") -> " ++ op.result.name

/-- Apply an operation to operands over a ground set. -/
def apply (op : Operation) (ground : Option Value) (operands : List Value) :
    Except Fault Value :=
  op.routine.run ground operands

/-! ## Shapes of routines -/

/-- A routine on one set or one relation that does not look at the elements. -/
def onCollection (name : String) (measure : {α : Type} → FinSet α → Value) : Routine :=
  ⟨⟨name, ["s"], false⟩, .plain fun
    | [.set s] => .ok (measure s)
    | [.relation r] => .ok (measure r)
    | _ => .error (.misapplied name)⟩

/-- A comparison of two sets or of two relations. -/
def onCollections (name : String)
    (compare : {α : Type} → [DecidableEq α] → FinSet α → FinSet α → Bool) : Routine :=
  ⟨⟨name, ["s1", "s2"], false⟩, .plain fun
    | [.set s, .set t] => .ok (.bool (compare s t))
    | [.relation r, .relation q] => .ok (.bool (compare r q))
    | _ => .error (.misapplied name)⟩

/-- A set of pairs in place of a set of words: only the empty one can be held by a line. -/
def setOfPairs (pairs : Relation) : Except Fault Value :=
  if FinSet.isEmpty pairs then .ok (.set ∅) else .error .pairsInSet

/-- The sets among values, if all of them are sets. -/
def sets? : List Value → Option (List (FinSet Element))
  | [] => some []
  | .set s :: rest => (sets? rest).map (s :: ·)
  | _ => none

/-- The relations among values, if all of them are relations. -/
def relations? : List Value → Option (List Relation)
  | [] => some []
  | .relation r :: rest => (relations? rest).map (r :: ·)
  | _ => none

/-- A routine that folds two sets or more.  Relations are folded as sets of pairs. -/
def onSets (name : String)
    (fold : {α : Type} → [DecidableEq α] → FinSet α → FinSet α → List (FinSet α) → FinSet α) :
    Routine :=
  ⟨⟨name, ["s1", "s2"], true⟩, .plain fun values =>
    match sets? values, relations? values with
    | some (s :: t :: others), _ => .ok (.set (fold s t others))
    | _, some (r :: q :: others) => setOfPairs (fold r q others)
    | _, _ => .error (.misapplied name)⟩

/-- A predicate of a relation over the ground set. -/
def onRelation (name : String)
    (test : {α : Type} → [DecidableEq α] → FinSet α → FinSet (α × α) → Bool) : Routine :=
  ⟨⟨name, ["universe", "relation"], false⟩, .grounded fun ground operands =>
    match operands with
    | [.relation r] => .ok (.bool (ground.check r test))
    | _ => .error (.misapplied name)⟩

/-- A set taken from the ground set by a relation. -/
def ofRelation (name : String) (part : FinSet Element → Relation → FinSet Element) : Routine :=
  ⟨⟨name, ["universe", "relation"], false⟩, .grounded fun ground operands =>
    match operands with
    | [.relation r] => .ok (.set (ground.take fun elements => part elements r))
    | _ => .error (.misapplied name)⟩

/-- A predicate of a relation between two sets. -/
def betweenSets (name : String)
    (test : Relation → FinSet Element → FinSet Element → Bool) : Routine :=
  ⟨⟨name, ["relation", "domain_set", "codomain_set"], false⟩, .plain fun
    | [.relation r, .set source, .set target] => .ok (.bool (test r source target))
    | _ => .error (.misapplied name)⟩

/-! ## The standard operations -/

/-- An operation on sets. -/
def ofSets (name : String) (arity : Nat) (result : Kind) (routine : Routine) : Operation :=
  ⟨name, .set, List.replicate arity .set, result, routine⟩

/-- An operation on a relation over the ground set. -/
def ofOneRelation (name : String) (result : Kind) (routine : Routine) : Operation :=
  ⟨name, .relation, [.relation], result, routine⟩

/-- An operation on a relation between two sets. -/
def ofRelationBetween (name : String)
    (test : Relation → FinSet Element → FinSet Element → Bool) : Operation :=
  ⟨name, .relation, [.relation, .set, .set], .bool, betweenSets name test⟩

/-- The complement of a set in the ground set.  No word is a pair, so where the one holds words
and the other pairs, the whole ground set is left over. -/
def complementRoutine : Routine :=
  ⟨⟨"complement", ["universe", "s"], false⟩, .grounded fun ground operands =>
    match ground, operands with
    | .words elements, [.set s] => .ok (.set (FinSet.compl elements s))
    | .words elements, [.relation _] => .ok (.set elements)
    | .pairs elements, [.set _] => setOfPairs elements
    | .pairs elements, [.relation r] => setOfPairs (FinSet.compl elements r)
    | _, _ => .error (.misapplied "complement")⟩

/-- The difference of two sets, or of two relations as sets of pairs. -/
def differenceRoutine : Routine :=
  ⟨⟨"difference", ["s1", "s2"], false⟩, .plain fun
    | [.set s, .set t] => .ok (.set (s \ t))
    | [.relation r, .relation q] => setOfPairs (r \ q)
    | _ => .error (.misapplied "difference")⟩

/-- The operations that every program can call, in the order of the catalog. -/
def standard : List Operation :=
  [ofSets "empty" 1 .bool (onCollection "is_empty" fun s => .bool s.isEmpty),
   ofSets "card" 1 .int (onCollection "cardinality" fun s => .int s.size),
   ofSets "complement" 1 .set complementRoutine,
   ofSets "union" 2 .set (onSets "union" FinSet.unions),
   ofSets "intersect" 2 .set (onSets "intersection" FinSet.inters),
   ofSets "minus" 2 .set differenceRoutine,
   ofSets "subseteq" 2 .bool (onCollections "is_subset_or_equal" FinSet.isSubset),
   ofSets "subset" 2 .bool (onCollections "is_proper_subset" FinSet.isProperSubset),
   ofSets "equals" 2 .bool (onCollections "is_equal" FinSet.isEqual),
   ofOneRelation "reflexive" .bool (onRelation "reflexive" Relation.reflexive),
   ofOneRelation "symmetric" .bool (onRelation "symmetric" Relation.symmetric),
   ofOneRelation "antisymmetric" .bool (onRelation "antisymmetric" Relation.antisymmetric),
   ofOneRelation "transitive" .bool (onRelation "transitive" Relation.transitive),
   ofOneRelation "function" .bool (onRelation "is_function" Relation.isFunction),
   ofOneRelation "domain" .set (ofRelation "domain" Relation.domain),
   ofOneRelation "codomain" .set (ofRelation "codomain" Relation.codomain),
   ofRelationBetween "injective" Relation.injective,
   ofRelationBetween "surjective" Relation.surjective,
   ofRelationBetween "bijective" Relation.bijective]

end Operation

end RelCalc
