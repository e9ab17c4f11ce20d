/-
  `Proofs.Evaluation.Equations`: a program read as a system of equations.

  Each line of a program is an equation for its own value: a declaration states the
  value, a call says how it is computed from the values of other lines.  No program
  and no run is mentioned here.  A solution is an assignment of values to all lines
  in which every equation holds; where the values can be found from the first line
  to the last, each from those before it, they are the only solution.
-/
import Mathlib.Data.List.Forall2
import RelCalc.Catalog
import RelCalc.Command
import RelCalc.Proofs.Reference

set_option autoImplicit false

namespace RelCalc

/-! ## The equation of a line -/

/-- Operands are the values of the lines that tokens refer to. -/
def Referents (values : List Value) (tokens : List String) (operands : List Value) : Prop :=
  List.Forall₂ (fun token value => referent? values token = some value) tokens operands

/-- The equation of a line: given the values of all lines, what its own value has to be. -/
inductive Equation (catalog : Catalog) (values : List Value) (command : Command) :
    Value → Prop where
  /-- The ground set is the declared one. -/
  | ground (role : command.role? = some .ground) :
      Equation catalog values command (.set (FinSet.ofList command.args))
  /-- A set is the declared one. -/
  | set (role : command.role? = some .set) :
      Equation catalog values command (.set (FinSet.ofList command.args))
  /-- A relation is the declared one. -/
  | relation (pairs : Relation) (role : command.role? = some .relation)
      (paired : Relation.ofFlat? command.args = some pairs) :
      Equation catalog values command (.relation pairs)
  /-- A call is the operation it names, applied over the first line to the lines it refers to. -/
  | call (name : String) (tokens : List String) (op : Operation) (first : Value)
      (operands : List Value) (value : Value) (role : command.role? = some .call)
      (args : command.args = name :: tokens) (found : catalog.find? name = some op)
      (ground : values.head? = some first) (referents : Referents values tokens operands)
      (applied : op.apply (some first) operands = .ok value) :
      Equation catalog values command value

/-- Operands have the kinds in a list exactly when their tokens refer to these kinds. -/
theorem forall₂_referent?_kinds_iff {values : List Value} {tokens : List String}
    {kinds : List Kind} :
    List.Forall₂ (fun token kind => referent? (values.map Value.kind) token = some kind)
        tokens kinds ↔
      ∃ operands, Referents values tokens operands ∧ operands.map Value.kind = kinds := by
  unfold Referents
  induction tokens generalizing kinds with
  | nil =>
    simp only [List.forall₂_nil_left_iff, exists_eq_left, List.map_nil]
    exact eq_comm
  | cons token rest ih =>
    simp only [List.forall₂_cons_left_iff, ih]
    simp only [referent?_map, Option.map_eq_some_iff]
    constructor
    · intro h
      obtain ⟨_, _, ⟨value, hvalue, rfl⟩, ⟨operands, hoperands, rfl⟩, rfl⟩ := h
      exact ⟨value :: operands, ⟨value, operands, hvalue, hoperands, rfl⟩, rfl⟩
    · intro h
      obtain ⟨_, ⟨value, operands, hvalue, hoperands, rfl⟩, rfl⟩ := h
      exact ⟨_, _, ⟨value, hvalue, rfl⟩, ⟨operands, hoperands, rfl⟩, rfl⟩

theorem Referents.unique {values : List Value} {tokens : List String} {a b : List Value}
    (ha : Referents values tokens a) (hb : Referents values tokens b) : a = b := by
  refine Relator.RightUnique.forall₂ ?_ ha hb
  intro token first second hfirst hsecond
  rw [hfirst] at hsecond
  exact Option.some.inj hsecond

theorem Referents.append {values : List Value} {tokens : List String} {operands : List Value}
    (h : Referents values tokens operands) (more : List Value) :
    Referents (values ++ more) tokens operands :=
  List.Forall₂.imp (fun _ _ found => referent?_append_of_some more found) h

section Equation

variable {catalog : Catalog} {values : List Value} {command : Command} {value other : Value}

/-- An equation determines the value of its line. -/
theorem Equation.unique (h : Equation catalog values command value)
    (h' : Equation catalog values command other) : value = other := by
  cases h with
  | ground role =>
    cases h' with
    | ground => rfl
    | set => rfl
    | relation _ role' => simp [role] at role'
    | call _ _ _ _ _ _ role' => simp [role] at role'
  | set role =>
    cases h' with
    | ground => rfl
    | set => rfl
    | relation _ role' => simp [role] at role'
    | call _ _ _ _ _ _ role' => simp [role] at role'
  | relation pairs role paired =>
    cases h' with
    | ground role' => simp [role] at role'
    | set role' => simp [role] at role'
    | relation pairs' _ paired' =>
      rw [paired] at paired'
      rw [Option.some.inj paired']
    | call _ _ _ _ _ _ role' => simp [role] at role'
  | call name tokens op first operands _ role args found ground referents applied =>
    cases h' with
    | ground role' => simp [role] at role'
    | set role' => simp [role] at role'
    | relation _ role' => simp [role] at role'
    | call name' tokens' op' first' operands' _ _ args' found' ground' referents' applied' =>
      obtain ⟨rfl, rfl⟩ := List.cons.inj (args.symm.trans args')
      obtain rfl : op = op' := Option.some.inj (found.symm.trans found')
      obtain rfl : first = first' := Option.some.inj (ground.symm.trans ground')
      obtain rfl : operands = operands' := referents.unique referents'
      exact Except.ok.inj (applied.symm.trans applied')

/-- An equation that holds among the first lines holds among all lines. -/
theorem Equation.append (h : Equation catalog values command value) (more : List Value) :
    Equation catalog (values ++ more) command value := by
  cases h with
  | ground role => exact .ground role
  | set role => exact .set role
  | relation pairs role paired => exact .relation pairs role paired
  | call name tokens op first operands _ role args found ground referents applied =>
    have hground : (values ++ more).head? = some first := by
      rw [List.head?_append, ground, Option.some_or]
    exact .call name tokens op first operands value role args found hground
      (referents.append more) applied

end Equation

/-! ## Solutions -/

/-- Every equation of a program holds. -/
structure Solves (catalog : Catalog) (commands : List Command) (values : List Value) : Prop where
  length_eq : values.length = commands.length
  line : ∀ (i : Nat) (command : Command) (value : Value), commands[i]? = some command →
    values[i]? = some value → Equation catalog values command value

/-- The values of the lines are found one after the other, each from those before it. -/
inductive Evaluates (catalog : Catalog) : List Command → List Value → Prop where
  | nil : Evaluates catalog [] []
  | snoc {commands : List Command} {values : List Value} {command : Command} {value : Value}
      (earlier : Evaluates catalog commands values)
      (last : Equation catalog values command value) :
      Evaluates catalog (commands ++ [command]) (values ++ [value])

namespace Evaluates

variable {catalog : Catalog} {commands : List Command} {values : List Value}

theorem length_eq (h : Evaluates catalog commands values) : values.length = commands.length := by
  induction h with
  | nil => rfl
  | snoc _ _ ih => simp [ih]

/-- Values found one after the other solve the equations: what comes later changes no line. -/
theorem solves (h : Evaluates catalog commands values) : Solves catalog commands values := by
  refine ⟨h.length_eq, ?_⟩
  induction h with
  | nil =>
    intro i command value hcommand
    simp at hcommand
  | @snoc commands values last lastValue earlier hlast ih =>
    have length := earlier.length_eq
    intro i command value hcommand hvalue
    rw [getElem?_concat_eq_some_iff] at hcommand hvalue
    rcases hcommand with hcommand | ⟨hi, rfl⟩
    · have bound := (List.getElem?_eq_some_iff.mp hcommand).1
      rcases hvalue with hvalue | ⟨hi, -⟩
      · exact (ih i command value hcommand hvalue).append [lastValue]
      · omega
    · rcases hvalue with hvalue | ⟨-, rfl⟩
      · have bound := (List.getElem?_eq_some_iff.mp hvalue).1
        omega
      · exact hlast.append [lastValue]

/-- Every solution of a program starts with the values found for its first lines. -/
theorem prefix_of_solves (h : Evaluates catalog commands values) (more : List Command)
    {solution : List Value} (solves : Solves catalog (commands ++ more) solution) :
    values <+: solution := by
  induction h generalizing more with
  | nil => exact List.nil_prefix
  | @snoc commands values command value earlier last ih =>
    rw [List.append_assoc] at solves
    obtain ⟨rest, rfl⟩ := ih ([command] ++ more) solves
    have length := earlier.length_eq
    have total := solves.length_eq
    cases rest with
    | nil =>
      simp only [List.append_nil, List.length_append, List.length_cons, List.length_nil] at total
      omega
    | cons found rest =>
      -- The line after the prefix: the solution keeps its equation, and so does the value found.
      have hcommand : (commands ++ ([command] ++ more))[values.length]? = some command := by
        rw [length]
        simp
      have hfound : (values ++ found :: rest)[values.length]? = some found := by simp
      have same : value = found :=
        (last.append (found :: rest)).unique (solves.line _ _ _ hcommand hfound)
      rw [same]
      exact ⟨rest, by simp⟩

/-- Values found one after the other are the only solution. -/
theorem eq_of_solves (h : Evaluates catalog commands values) {solution : List Value}
    (solves : Solves catalog commands solution) : solution = values := by
  have start : values <+: solution := h.prefix_of_solves [] (by simpa using solves)
  have length : values.length = solution.length := h.length_eq.trans solves.length_eq.symm
  exact (start.eq_of_length length).symm

end Evaluates

end RelCalc
