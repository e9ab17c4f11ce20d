/-
  `Proofs.Evaluation.Spelled`: results of standard operations can be reported.

  The only numbers that the standard operations give are sizes.  The commands of a
  checked list take their elements from one ground set, and operations stay within it, so
  every value that is found on the way lies within it, by induction on the lines.  As the
  check keeps elements short, a ground set is too small for a size of more digits than a
  line can hold: all lines of a list that the check of calls accepts can be settled.
-/
import RelCalc.Proofs.Containment
import RelCalc.Proofs.Evaluation.Run

set_option autoImplicit false

namespace RelCalc.Program

open Outcome Validation

/-- The commands of a list take all their elements from one ground set, which the first of them
declares. -/
structure TakesFrom (ground : Command) (commands : List Command) : Prop where
  first : ∀ command, commands.head? = some command → command = ground
  role : ground.role? = some .ground
  only : ∀ command ∈ commands, command.role? = some .ground → command = ground
  inside : ∀ command ∈ commands, declares command.role? = true → IsDeclaration ground.args command

/-- The check of elements and the rules on the ground set say that commands take from it. -/
theorem exists_takesFrom {commands : List Command} (shape : KeepsShape commands)
    (declared : checkDeclaredElements commands = .ok ()) :
    ∃ ground rest, commands = ground :: rest ∧ TakesFrom ground commands := by
  obtain ⟨ground, rest, rfl, role, others⟩ := shape.cons_ground
  refine ⟨ground, rest, rfl, ?_, role, ?_, checkDeclaredElements_cons_eq_ok_iff.mp declared⟩
  · intro command found
    exact (Option.some.inj found).symm
  · intro command member again
    rcases List.mem_cons.mp member with rfl | later
    · rfl
    · exact absurd again (others command later)

namespace TakesFrom

variable {catalog : Catalog} {ground command : Command} {commands more : List Command}
  {values : List Value} {value : Value}

theorem groundFirst (h : TakesFrom ground commands) : GroundFirst commands := by
  intro command found
  rw [h.first command found]
  exact h.role

theorem of_append (h : TakesFrom ground (commands ++ more)) : TakesFrom ground commands := by
  refine ⟨fun command found => h.first command ?_, h.role,
    fun command member => h.only command (List.mem_append_left more member),
    fun command member => h.inside command (List.mem_append_left more member)⟩
  rw [List.head?_append, found, Option.some_or]

/-- What is declared lies within the ground set. -/
theorem within_of_declares (h : TakesFrom ground commands) (member : command ∈ commands)
    (role : declares command.role? = true) (equation : Equation catalog values command value) :
    value.Within (FinSet.ofList ground.args) := by
  cases h.inside command member role with
  | set role inside distinct =>
    obtain rfl := equation.unique (.set role)
    exact Value.within_set_iff.mpr fun a member =>
      FinSet.mem_ofList.mpr (inside a (FinSet.mem_ofList.mp member))
  | relation pairs role inside paired distinct =>
    have hpairs : Relation.ofFlat? command.args = some (FinSet.ofList pairs) := by
      rw [Relation.ofFlat?, pairUp?_eq_some_iff.mpr paired]
      rfl
    obtain rfl := equation.unique (.relation _ role hpairs)
    refine Value.within_relation_iff.mpr fun pair member => ?_
    obtain ⟨first, second⟩ := Relation.mem_flatten (FinSet.mem_ofList.mp member)
    rw [← paired] at first second
    exact ⟨FinSet.mem_ofList.mpr (inside _ first), FinSet.mem_ofList.mpr (inside _ second)⟩

end TakesFrom

section Call

variable {catalog : Catalog} {command : Command} {values : List Value} {value : Value}
  {elements : FinSet Element}

/-- The value of a call that fits is what an operation gives for values of its kinds, all of them of
earlier lines. -/
theorem exists_applied (role : command.role? = some .call)
    (fits : CallFits catalog (values.map Value.kind) command)
    (ground : values.head? = some (.set elements))
    (equation : Equation catalog values command value) :
    ∃ op operands, op ∈ catalog.entries ∧ operands.map Value.kind = op.operands ∧
      (∀ v ∈ operands, v ∈ values) ∧ op.apply (some (.set elements)) operands = .ok value := by
  cases equation with
  | ground other | set other | relation _ other => simp [role] at other
  | call name tokens op first operands _ _ args found head referents applied =>
    obtain rfl := Option.some.inj (head.symm.trans ground)
    obtain ⟨name', tokens', op', args', found', fits⟩ := fits
    obtain ⟨rfl, rfl⟩ := List.cons.inj (args.symm.trans args')
    obtain rfl : op = op' := Option.some.inj (found.symm.trans found')
    obtain ⟨operands', referents', kinds⟩ := forall₂_referent?_kinds_iff.mp fits.referents
    obtain rfl : operands = operands' := referents.unique referents'
    refine ⟨op, operands, (Catalog.mem_and_name_of_find? found).1, kinds, ?_, applied⟩
    refine forall_mem_of_forall₂ referents.flip fun v token referent => ?_
    obtain ⟨n, -, line⟩ := referent?_eq_some_iff.mp referent
    exact List.mem_of_getElem? (atLine?_eq_some_iff.mp line).2

/-- A call that fits gives a value within the ground set if all lines before it have. -/
theorem within_of_call (stays : ∀ op ∈ catalog.entries, op.StaysWithin)
    (role : command.role? = some .call) (fits : CallFits catalog (values.map Value.kind) command)
    (ground : values.head? = some (.set elements)) (earlier : ∀ v ∈ values, v.Within elements)
    (equation : Equation catalog values command value) : value.Within elements := by
  obtain ⟨op, operands, known, kinds, inside, applied⟩ := exists_applied role fits ground equation
  exact stays op known elements elements operands value (fun _ member => member) kinds
    (fun v member => earlier v (inside v member)) applied

end Call

/-- Every line has a value within the ground set: by induction on the lines, each call being
evaluated on values of earlier lines. -/
theorem within_of_evaluates {catalog : Catalog} {ground : Command} {commands : List Command}
    {values : List Value} (stays : ∀ op ∈ catalog.entries, op.StaysWithin)
    (takes : TakesFrom ground commands) (evaluates : Evaluates catalog commands values)
    (passes : commandKinds catalog [] commands = .ok (values.map Value.kind)) :
    ∀ value ∈ values, value.Within (FinSet.ofList ground.args) := by
  induction evaluates with
  | nil => nofun
  | @snoc commands values command value earlier last ih =>
    rw [commandKinds_concat, List.map_append] at passes
    simp only [bind_eq_ok_iff, pure_eq_ok_iff, List.map_cons, List.map_nil] at passes
    obtain ⟨kinds, checked, kind, passed, same⟩ := passes
    obtain ⟨rfl, -⟩ := List.append_inj' same rfl
    have before := ih takes.of_append checked
    refine List.forall_mem_append.mpr ⟨before, List.forall_mem_singleton.mpr ?_⟩
    have member : command ∈ commands ++ [command] := by simp
    cases role : command.role? with
    | none =>
      have static := (commandKind_eq_ok_iff.mp passed).1
      simp [staticKind?, role] at static
    | some purpose =>
      cases purpose with
      | ground =>
        obtain rfl := takes.only command member role
        obtain rfl := last.unique (.ground role)
        exact Value.within_set_iff.mpr fun a inside => inside
      | set => exact takes.within_of_declares member (declares_iff.mpr (.inl role)) last
      | relation => exact takes.within_of_declares member (declares_iff.mpr (.inr role)) last
      | call =>
        refine within_of_call stays role ((commandKind_eq_ok_iff.mp passed).2 role) ?_ before last
        obtain ⟨first, found, held⟩ := exists_ground_of_evaluates earlier takes.groundFirst role
        rw [held, takes.of_append.first first found]

/-- Over the standard catalog, commands that pass the check of calls can be run: a value that lies
within the ground set can be reported. -/
theorem exists_settles {ground : Command} {commands : List Command}
    (takes : TakesFrom ground commands)
    (few : (FinSet.ofList ground.args).size < Text.digitBound) {slots : List Slot}
    (hslots : slotsOf commands = .ok slots) {kinds : List Kind}
    (passes : commandKinds Catalog.standard [] commands = .ok kinds) :
    ∃ values, Settles Catalog.standard commands slots kinds values := by
  rcases settles_or_exceeds Catalog.wellTyped_standard takes.groundFirst hslots passes with
    settles | @⟨earlier, later, command, before, after, kinds, kind, values, name, operands, value,
      rfl, -, -, checked, settles, role, passed, computes, unreported⟩
  · exact settles
  · have takes' : TakesFrom ground (earlier ++ [command]) := by
      rw [List.append_cons] at takes
      exact takes.of_append
    have passes' : commandKinds Catalog.standard [] (earlier ++ [command]) =
        .ok ((values ++ [value]).map Value.kind) := by
      rw [commandKinds_concat, checked]
      show (commandKind _ kinds command >>= _) = _
      rw [commandKind, role]
      show (callKind _ kinds command >>= _) = _
      rw [passed, List.map_append, settles.kinds_eq, List.map_singleton, computes.kind_eq]
      rfl
    have within := within_of_evaluates Catalog.staysWithin_standard takes'
      (.snoc settles.evaluates computes.equation) passes' value (by simp)
    rw [Value.isSpelled_of_within few within] at unreported
    cases unreported

end RelCalc.Program
