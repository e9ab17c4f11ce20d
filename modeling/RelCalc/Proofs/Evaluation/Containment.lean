/-
  `Proofs.Evaluation.Containment`: no value of an accepted program leaves the ground set.

  Every line of an accepted program ends up with a value within the ground set.  During
  the evaluation a line holds its final value or none, whatever has been evaluated so
  far, so the same is true at every moment.  It follows that a set is printed as a line
  that could have been a declaration, and that a table over the ground set keeps every
  pair of a relation.
-/
import RelCalc.Proofs.Evaluation.Confluence
import RelCalc.Proofs.Evaluation.Reload
import RelCalc.Proofs.Relation.Count

set_option autoImplicit false

namespace RelCalc

namespace Program

open Outcome Validation

/-! ## Final values -/

namespace Accepted

variable {catalog : Catalog} {ground : Command} {rest : List Command} {slots : List Slot}
  {kinds : List Kind} {values : List Value}

/-- The elements of the ground set are words. -/
theorem isWord_of_ground (h : Accepted catalog (ground :: rest) slots kinds values) :
    ∀ element ∈ ground.args, Source.IsWord element := by
  obtain ⟨-, elements, -⟩ := check_eq_ok_iff.mp (validate_eq_none_iff.mp h.validated)
  have each := (checkGroundElements_cons_eq_ok_iff.mp elements).1
  exact fun element member => isWord_of_isElement (each element member)

/-- Every line has a value within the ground set. -/
theorem within (h : Accepted catalog (ground :: rest) slots kinds values)
    (stays : ∀ op ∈ catalog.entries, op.StaysWithin) :
    ∀ value ∈ values, value.Within (FinSet.ofList ground.args) := by
  obtain ⟨shape, -, declared, -⟩ := check_eq_ok_iff.mp (validate_eq_none_iff.mp h.validated)
  obtain ⟨_, _, same, takes⟩ := exists_takesFrom shape declared
  obtain ⟨rfl, rfl⟩ := List.cons.inj same
  have passes := h.kinds_eq
  rw [← h.settles.kinds_eq] at passes
  exact within_of_evaluates stays takes h.settles.evaluates passes

end Accepted

/-! ## Every moment of the evaluation -/

/-- Everything that the lines of a program hold stays within a declared ground set.  A set is
printed as a line that is read as a declaration, and the check of declarations accepts it; a
table over the ground set has a set cell for every pair of a relation. -/
structure Contained (ground : Command) (p : Program) : Prop where
  within : ∀ slot ∈ p.slots, ∀ value, slot.value? = some value →
    value.Within (FinSet.ofList ground.args)
  declares : ∀ slot ∈ p.slots, ∀ s, slot.value? = some (.set s) →
    Source.read (Value.set s).text = .ok [⟨"S", s.toList, some 1⟩] ∧
      checkDeclaredElements [ground, ⟨"S", s.toList, some 1⟩] = .ok ()
  keeps : ∀ slot ∈ p.slots, ∀ r, slot.value? = some (.relation r) →
    (Relation.table r (FinSet.ofList ground.args) (FinSet.ofList ground.args)).setCells = r.size

section Contained

variable {catalog : Catalog} {ground : Command} {rest : List Command} {slots : List Slot}
  {kinds : List Kind} {values : List Value} {p : Program} {s : FinSet Element}

/-- The line of a set of words is read as the declaration of this set. -/
theorem read_text_set (each : ∀ a ∈ s, Source.IsWord a) :
    Source.read (Value.set s).text = .ok [⟨"S", s.toList, some 1⟩] := by
  have words : ∀ word ∈ "S" :: s.toList, Source.IsWord word :=
    List.forall_mem_cons.mpr ⟨isWord_letter .set, each⟩
  have line : (Value.set s).text = Source.print [⟨"S", s.toList, none⟩] :=
    Source.letterLine_unwords "S" each
  rw [line, Source.read_print (List.forall_mem_singleton.mpr words)]
  rfl

/-- A declaration of elements of the ground set passes the check. -/
theorem checkDeclaredElements_of_inside (role : ground.role? = some .ground)
    (inside : ∀ a ∈ s, a ∈ ground.args) :
    checkDeclaredElements [ground, ⟨"S", s.toList, some 1⟩] = .ok () := by
  refine checkDeclaredElements_cons_eq_ok_iff.mpr
    (List.forall_mem_cons.mpr ⟨?_, List.forall_mem_singleton.mpr ?_⟩)
  · intro declared
    rw [declares, role] at declared
    cases declared
  · exact fun _ => .set rfl inside s.nodup

/-- Values within the ground set are contained, wherever they are held. -/
theorem contained_of_within (role : ground.role? = some .ground)
    (words : ∀ a ∈ ground.args, Source.IsWord a)
    (within : ∀ slot ∈ p.slots, ∀ value, slot.value? = some value →
      value.Within (FinSet.ofList ground.args)) : Contained ground p := by
  refine ⟨within, fun slot member s held => ?_, fun slot member r held => ?_⟩
  · have inside : ∀ a ∈ s, a ∈ ground.args := fun a inside =>
      FinSet.mem_ofList.mp (Value.within_set_iff.mp (within slot member _ held) a inside)
    exact ⟨read_text_set fun a member => words a (inside a member),
      checkDeclaredElements_of_inside role inside⟩
  · exact Relation.setCells_table_of_between
      (Value.within_relation_iff.mp (within slot member _ held))

/-- A partly evaluated program is contained in its ground set. -/
theorem Accepted.contained_of_partly (h : Accepted catalog (ground :: rest) slots kinds values)
    (stays : ∀ op ∈ catalog.entries, op.StaysWithin) (partly : Partly slots values p) :
    Contained ground p := by
  obtain ⟨_, _, same, role, -⟩ := h.exists_ground
  obtain ⟨rfl, rfl⟩ := List.cons.inj same
  refine contained_of_within role h.isWord_of_ground fun slot member value held => ?_
  obtain ⟨i, found⟩ := List.getElem?_of_mem member
  have settled := Slot.isCall_of_value? held
  obtain ⟨value', hvalue, held', -⟩ := h.value_of_partly partly found settled
  obtain rfl : value = value' := Option.some.inj (held.symm.trans held')
  exact h.within stays value (List.mem_of_getElem? hvalue)

/-- Any number of calls can be evaluated in their order; the program is partly evaluated then. -/
theorem Accepted.exists_partly_of_take (h : Accepted catalog (ground :: rest) slots kinds values)
    (wellTyped : catalog.WellTyped) (partly : Partly slots values p) (count : Nat) :
    ∃ q, runLines catalog (p.calls.take count) p = (q, none) ∧ Partly slots values q := by
  induction count generalizing p with
  | zero => exact ⟨p, rfl, partly⟩
  | succ count ih =>
    cases calls : p.calls with
    | nil => exact ⟨p, rfl, partly⟩
    | cons line later =>
      obtain ⟨next, evaluated, partly', left⟩ := h.evaluate_first_of_partly wellTyped partly calls
      obtain ⟨q, ran, partly''⟩ := ih partly'
      rw [left] at ran
      rw [List.take_succ_cons, runLines_cons_of_ok evaluated]
      exact ⟨q, ran, partly''⟩

end Contained

/-- **Every value stays within the ground set.**  However many calls of an accepted program a run
has evaluated, and wherever evaluations of single calls in any order lead, all values that lines
hold lie within the ground set; its sets could be declared, and its relations lose nothing in a
table. -/
theorem contained_of_validate {commands : List Command}
    (accepted : validate Catalog.standard commands = .ok none) :
    ∃ (ground : Command) (start : Program), commands.head? = some ground ∧
      ofCommands commands = .ok start ∧
      (∀ count, ∃ p, runLines Catalog.standard (start.calls.take count) start = (p, none) ∧
        Contained ground p) ∧
      ∀ s, Session.Reaches Catalog.standard (.fresh start) s → Contained ground s.program := by
  have wellTyped := Catalog.wellTyped_standard
  have stays := Catalog.staysWithin_standard
  obtain ⟨slots, kinds, values, h⟩ := exists_accepted accepted
  obtain ⟨ground, rest, rfl, -⟩ := h.exists_ground
  refine ⟨ground, ⟨slots⟩, rfl, h.ofCommands_eq, fun count => ?_, fun s reached => ?_⟩
  · obtain ⟨p, ran, partly⟩ := h.exists_partly_of_take wellTyped (.start slots values) count
    exact ⟨p, ran, h.contained_of_partly stays partly⟩
  · exact h.contained_of_partly stays (Session.partly_of_reaches h wellTyped reached).2

/-- In the sample program, the set that the third line gives has been found and the number of its
elements has not. -/
theorem contained_of_validate_sampleCommands :
    validate Catalog.standard sampleCommands = .ok none ∧
      ∃ ground start p, sampleCommands.head? = some ground ∧
        ofCommands sampleCommands = .ok start ∧
        runLines Catalog.standard (start.calls.take 1) start = (p, none) ∧ Contained ground p := by
  have accepted : validate Catalog.standard sampleCommands = .ok none := by decide +kernel
  obtain ⟨ground, start, head, made, run, -⟩ := contained_of_validate accepted
  obtain ⟨p, ran, contained⟩ := run 1
  exact ⟨accepted, ground, start, p, head, made, ran, contained⟩

end Program

end RelCalc
