/-
  `Catalog`: the operations that calls can name.

  A catalog is a list of operations with different names, so a name finds at most
  one of them.  Building a catalog from a list refuses the first name that comes
  a second time.
-/
import RelCalc.Operation

set_option autoImplicit false

namespace RelCalc

/-- Operations with pairwise different names. -/
structure Catalog where
  entries : List Operation
  distinct : (entries.map Operation.name).Nodup

namespace Catalog

/-- The catalog without operations. -/
def empty : Catalog := ⟨[], List.nodup_nil⟩

instance : EmptyCollection Catalog := ⟨empty⟩

instance : Inhabited Catalog := ⟨empty⟩

/-- The names of all operations, in order. -/
def names (catalog : Catalog) : List String := catalog.entries.map Operation.name

/-- The operation of a name. -/
def find? (catalog : Catalog) (name : String) : Option Operation :=
  catalog.entries.find? fun op => op.name = name

/-- A catalog with one more operation; its name must be new. -/
def add (catalog : Catalog) (op : Operation) : Except Fault Catalog :=
  if h : op.name ∈ catalog.names then .error (.duplicateOperation op.name)
  else .ok ⟨catalog.entries ++ [op], by
    simp only [List.map_append, List.map_cons, List.map_nil, List.nodup_append,
      List.mem_singleton, List.nodup_cons, List.not_mem_nil, not_false_eq_true, List.nodup_nil,
      and_self, true_and]
    exact ⟨catalog.distinct, fun x hx y hy => by rintro rfl; exact h (hy ▸ hx)⟩⟩

/-- The catalog of a list of operations. -/
def ofList (operations : List Operation) : Except Fault Catalog := operations.foldlM add ∅

/-- The catalog of the standard operations. -/
def standard : Catalog := ⟨Operation.standard, by decide⟩

/-- The operation of a name, or a fault if the catalog does not have it. -/
def lookup (catalog : Catalog) (name : String) : Except Fault Operation :=
  match catalog.find? name with
  | some op => .ok op
  | none => .error (.noOperation name)

/-- What a name finds is an operation of the catalog and has that name. -/
theorem mem_and_name_of_find? {catalog : Catalog} {name : String} {op : Operation}
    (h : catalog.find? name = some op) : op ∈ catalog.entries ∧ op.name = name :=
  ⟨List.mem_of_find?_eq_some h, by simpa using List.find?_some h⟩

/-- A name finds nothing exactly when no operation has it. -/
theorem find?_eq_none_iff {catalog : Catalog} {name : String} :
    catalog.find? name = none ↔ name ∉ catalog.names := by
  simp only [find?, names, List.find?_eq_none, List.mem_map, decide_eq_true_eq]
  exact ⟨fun h ⟨op, inside, same⟩ => h op inside same, fun h op inside same => h ⟨op, inside, same⟩⟩

end Catalog

end RelCalc
