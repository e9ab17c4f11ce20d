/-
  `Value`: what a line of a program can hold.

  A value is a set, a relation, a truth value or an integer, and each value has
  one of four kinds.  Kinds are what operations are typed with: an operation
  names the kinds of its operands and of its result.  A value prints on one
  line; sets and relations start with their letter, so the line of a set or a
  relation is again a declaration.
-/
import RelCalc.Relation.Basic
import RelCalc.Text.Numeral
import RelCalc.Text.Quoted
import RelCalc.Text.Words

set_option autoImplicit false

namespace RelCalc

/-- The kinds of values. -/
inductive Kind where
  | set
  | relation
  | bool
  | int
  deriving DecidableEq, Repr, Inhabited

namespace Kind

/-- The word for a kind. -/
def name : Kind → String
  | set => "set"
  | relation => "relation"
  | bool => "bool"
  | int => "int"

/-- The kind that a word names. -/
def ofName? : String → Option Kind
  | "set" => some set
  | "relation" => some relation
  | "bool" => some bool
  | "int" => some int
  | _ => none

end Kind

/-- A value: a set, a relation, a truth value or an integer. -/
inductive Value where
  | set (elements : FinSet Element)
  | relation (pairs : Relation)
  | bool (truth : Bool)
  | int (number : Int)
  deriving DecidableEq, Inhabited

/-- The words of a declaration after its letter; the letter stands alone when there is nothing
to add. -/
def letterLine (letter body : String) : String :=
  if body = "" then letter else letter ++ " " ++ body

/-- The elements of a set on one line. -/
def FinSet.body (s : FinSet Element) : String := Text.unwords s.toList

/-- The components of a relation on one line. -/
def Relation.body (r : Relation) : String := Text.unwords (Relation.toFlat r)

/-- The constructor text of a set. -/
def FinSet.describe (s : FinSet Element) : String := "Set(" ++ Text.quoteList s.toList ++ ")"

/-- The constructor text of a relation. -/
def Relation.describe (r : Relation) : String :=
  "Relation([" ++ Text.joinWith ", " (r.toList.map Text.quotePair) ++ "])"

namespace Value

/-- The kind of a value. -/
def kind : Value → Kind
  | set _ => .set
  | relation _ => .relation
  | bool _ => .bool
  | int _ => .int

/-- The line a value prints. -/
def text : Value → String
  | set s => letterLine "S" s.body
  | relation r => letterLine "R" (Relation.body r)
  | bool true => "true"
  | bool false => "false"
  | int n => toString n

/-- A value is spelled by its line, unless it is a number that needs too many digits. -/
def isSpelled : Value → Bool
  | int n => Text.isSpelled n
  | set _ | relation _ | bool _ => true

/-- Sameness of values: sets and relations are compared without their order. -/
def same : Value → Value → Bool
  | set s, set t => s.same t
  | relation r, relation q => FinSet.same r q
  | bool a, bool b => a = b
  | int n, int m => n = m
  | _, _ => false

/-- One value for each class of values that are the same, the first of each class. -/
def representatives (values : List Value) : List Value :=
  values.foldl (fun found v => if found.any v.same then found else found ++ [v]) []

/-- How many different values a list holds. -/
def countDistinct (values : List Value) : Nat := (representatives values).length

end Value

end RelCalc
