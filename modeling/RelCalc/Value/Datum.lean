/-
  `Value.Datum`: data that may or may not be a value.

  A caller can hand over something that is no value at all: nothing, a text, a
  floating-point number, a list or a record.  Asking for the kind of such a datum
  is refused, and the refusal spells the datum and names its type.
-/
import RelCalc.Text.Decimal
import RelCalc.Value

set_option autoImplicit false

namespace RelCalc

/-- A value, or something that is none. -/
inductive Datum where
  | value (v : Value)
  | nothing
  | text (content : String)
  /-- A floating-point number. -/
  | decimal (number : Float)
  | list (items : List Datum)
  /-- Data under names, name by name. -/
  | record (names : List String) (items : List Datum)
  deriving Inhabited

namespace Datum

/-- The word for the type of a datum. -/
def typeName : Datum → String
  | value (.set _) => "Set"
  | value (.relation _) => "Relation"
  | value (.bool _) => "bool"
  | value (.int _) => "int"
  | nothing => "NoneType"
  | text _ => "str"
  | decimal _ => "float"
  | list _ => "list"
  | record .. => "dict"

mutual

/-- The spelling of a datum on one line. -/
def spelling : Datum → String
  | value (.set s) => s.describe
  | value (.relation r) => Relation.describe r
  | value (.bool true) => "True"
  | value (.bool false) => "False"
  | value (.int n) => toString n
  | nothing => "None"
  | text content => Text.quote content
  | decimal number => Text.decimalText number
  | list items => "[" ++ Text.joinWith ", " (spellings items) ++ "]"
  | record names items =>
      let entries := (names.zip (spellings items)).map fun entry =>
        Text.quote entry.1 ++ ": " ++ entry.2
      "\x7b" ++ Text.joinWith ", " entries ++ "\x7d"

/-- The spellings of the items of a list. -/
def spellings : List Datum → List String
  | [] => []
  | item :: rest => spelling item :: spellings rest

end

/-- The value that a datum is. -/
def value? : Datum → Option Value
  | value v => some v
  | _ => none

end Datum

end RelCalc
