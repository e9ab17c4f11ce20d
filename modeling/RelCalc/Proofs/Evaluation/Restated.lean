/-
  `Proofs.Evaluation.Restated`: commands that say the same in other words.

  A command restates another when it has its role and its arguments, except that the
  operands of a call may be other tokens for the same numbers.  Where it stands in its
  source does not matter.  A list of commands that restates an accepted one is accepted,
  makes slots of the same contents, and its lines get the same values.
-/
import RelCalc.Proofs.Evaluation.LineMap

set_option autoImplicit false

namespace RelCalc

open Outcome Validation

/-- A command that says the same as another: operands may be other tokens for the same numbers. -/
structure Restates (command other : Command) : Prop where
  word : other.word = command.word
  args : command.role? ≠ some .call → other.args = command.args
  call : command.role? = some .call → ∃ name tokens tokens', command.args = name :: tokens ∧
    other.args = name :: tokens' ∧ List.Forall₂ (fun token token' =>
      ∃ n, Text.readNatural token = .ok n ∧ Text.readNatural token' = .ok n) tokens tokens'

/-! ## One command -/

namespace Restates

variable {catalog : Catalog} {kinds : List Kind} {command other : Command} {ground : List Element}

theorem role (h : Restates command other) : other.role? = command.role? :=
  congrArg Role.ofWord? h.word

theorem staticKind? (h : Restates command other) :
    staticKind? catalog other = staticKind? catalog command := by
  unfold Validation.staticKind?
  rw [h.role]
  by_cases role : command.role? = some .call
  · obtain ⟨name, tokens, tokens', args, args', -⟩ := h.call role
    rw [args, args', List.head?_cons, List.head?_cons]
  · rw [h.args role]

theorem isDeclaration (h : Restates command other) (declared : IsDeclaration ground command) :
    IsDeclaration ground other := by
  cases declared with
  | set role inside distinct =>
    have args := h.args (by simp [role])
    exact .set (h.role.trans role) (args ▸ inside) (args ▸ distinct)
  | relation pairs role inside paired distinct =>
    have args := h.args (by simp [role])
    exact .relation pairs (h.role.trans role) (args ▸ inside) (args ▸ paired) distinct

/-- Other tokens for the same numbers refer to the same lines. -/
theorem referents_of_same_numbers {tokens tokens' : List String} {expected : List Kind}
    (same : List.Forall₂ (fun token token' =>
      ∃ n, Text.readNatural token = .ok n ∧ Text.readNatural token' = .ok n) tokens tokens')
    (h : List.Forall₂ (fun token kind => referent? kinds token = some kind) tokens expected) :
    List.Forall₂ (fun token kind => referent? kinds token = some kind) tokens' expected := by
  induction same generalizing expected with
  | nil => exact h
  | cons both _ ih =>
    obtain ⟨n, read, read'⟩ := both
    cases h with
    | cons first later =>
      refine .cons ?_ (ih later)
      rw [referent?, read] at first
      rwa [referent?, read']

/-- They are read as the same operands. -/
theorem mapM_readOperand_of_same_numbers {tokens tokens' : List String}
    (same : List.Forall₂ (fun token token' =>
      ∃ n, Text.readNatural token = .ok n ∧ Text.readNatural token' = .ok n) tokens tokens') :
    tokens'.mapM readOperand = tokens.mapM readOperand := by
  induction same with
  | nil => rfl
  | cons both _ ih =>
    obtain ⟨n, read, read'⟩ := both
    rw [List.mapM_cons, List.mapM_cons, ih, readOperand_of_readNatural read,
      readOperand_of_readNatural read']

/-- A call of other tokens for the same numbers fits where the call does. -/
theorem callFits (h : Restates command other) (role : command.role? = some .call)
    (fits : CallFits catalog kinds command) : CallFits catalog kinds other := by
  obtain ⟨name, tokens, op, args, found, referents, level⟩ := fits
  obtain ⟨_, _, tokens', hargs, args', same⟩ := h.call role
  obtain ⟨rfl, rfl⟩ := List.cons.inj (args.symm.trans hargs)
  exact ⟨name, tokens', op, args', found, referents_of_same_numbers same referents, level⟩

/-- A command that restates another makes a slot of the same content. -/
theorem content_eq (h : Restates command other) : other.content = command.content := by
  unfold Command.content
  rw [h.role]
  by_cases role : command.role? = some .call
  · obtain ⟨name, tokens, tokens', args, args', same⟩ := h.call role
    simp only [role, args, args', readCall, mapM_readOperand_of_same_numbers same]
  · rw [h.args role, h.word]

end Restates

/-! ## All commands -/

section Commands

variable {catalog : Catalog} {commands others : List Command}

/-- The rules about shape look at the roles of commands only. -/
theorem KeepsShape.of_roles (h : KeepsShape commands)
    (same : others.map Command.role? = commands.map Command.role?) : KeepsShape others := by
  have short := (checkSize_eq_ok_iff.mp h.size).2
  obtain ⟨ground, declarations, calls, rfl, layout⟩ := h.layout
  have length : others.length = (ground :: (declarations ++ calls)).length := by
    rw [← List.length_map Command.role?, same, List.length_map]
  rw [← length] at short
  rw [List.map_cons, List.map_append, List.map_eq_cons_iff] at same
  obtain ⟨ground', rest, rfl, groundRole, same⟩ := same
  obtain ⟨declarations', calls', rfl, declared, called⟩ := List.map_eq_append_iff.mp same
  have role {entries entries' : List Command} (same : entries'.map Command.role? =
      entries.map Command.role?) {command : Command} (member : command ∈ entries') :
      ∃ entry ∈ entries, entry.role? = command.role? :=
    List.mem_map.mp (same ▸ List.mem_map_of_mem member)
  refine Layout.keepsShape ⟨groundRole.trans layout.ground_role, ?_, fun command member => ?_, ?_,
    fun command member => ?_⟩ short
  · rintro rfl
    exact layout.declared (List.map_eq_nil_iff.mp declared.symm)
  · obtain ⟨entry, inside, hrole⟩ := role declared member
    exact hrole ▸ layout.declares entry inside
  · rintro rfl
    exact layout.called (List.map_eq_nil_iff.mp called.symm)
  · obtain ⟨entry, inside, hrole⟩ := role called member
    exact hrole ▸ layout.call_role entry inside

/-- Commands that restate accepted ones pass the check. -/
theorem check_of_restates (same : List.Forall₂ Restates commands others)
    (passes : check catalog commands = .ok ()) : check catalog others = .ok () := by
  obtain ⟨shape, elements, declared, calls⟩ := check_eq_ok_iff.mp passes
  have shape' := KeepsShape.of_roles shape (map_eq_of_forall₂ same fun _ _ h => h.role)
  obtain ⟨ground, rest, rfl, groundRole, -⟩ := shape.cons_ground
  obtain ⟨ground', rest', hground, hrest, rfl⟩ := List.forall₂_cons_left_iff.mp same
  have groundArgs : ground'.args = ground.args := hground.args (by simp [groundRole])
  refine check_eq_ok_iff.mpr ⟨shape', ?_, ?_, ?_⟩
  · rw [checkGroundElements_cons_eq_ok_iff] at elements ⊢
    rwa [groundArgs]
  · rw [checkDeclaredElements_cons_eq_ok_iff] at declared ⊢
    intro other member declares
    obtain ⟨i, found⟩ := List.getElem?_of_mem member
    obtain ⟨command, hcommand, restates⟩ := exists_left_of_forall₂ same found
    rw [restates.role] at declares
    rw [groundArgs]
    exact restates.isDeclaration (declared command (List.mem_of_getElem? hcommand) declares)
  · obtain ⟨kinds, hkinds, -⟩ := bind_eq_ok_iff.mp calls
    obtain ⟨statics, fits⟩ := commandKinds_eq_ok_iff.mp hkinds
    have hkinds' : commandKinds catalog [] (ground' :: rest') = .ok kinds := by
      refine commandKinds_eq_ok_iff.mpr ⟨?_, fun i other found role => ?_⟩
      · rw [← statics]
        exact map_eq_of_forall₂ same fun _ _ h => h.staticKind?
      · obtain ⟨command, hcommand, restates⟩ := exists_left_of_forall₂ same found
        have hrole := restates.role.symm.trans role
        exact restates.callFits hrole (fits i command hcommand hrole)
    rw [checkCalls, hkinds']
    rfl

namespace Program

/-- Commands that restate others map line by line to them. -/
theorem mapsLines_of_restates (same : List.Forall₂ Restates commands others)
    (first : ∀ ground, commands.head? = some ground → ground.role? = some .ground) :
    MapsLines id commands others := by
  refine ⟨?_, rfl, fun line command found declared => ?_, fun line command found role => ?_⟩
  · cases same with
    | nil => rfl
    | cons hground _ =>
      have role := first _ rfl
      rw [List.head?_cons, List.head?_cons, Option.map_some, Option.map_some,
        hground.args (by simp [role])]
  · obtain ⟨positive, place⟩ := atLine?_eq_some_iff.mp found
    obtain ⟨other, hother, restates⟩ := exists_right_of_forall₂ same place
    have notCall : command.role? ≠ some .call := by
      intro role
      rw [role] at declared
      cases declared
    exact ⟨other, atLine?_eq_some_iff.mpr ⟨positive, hother⟩, restates.role, restates.args notCall⟩
  · obtain ⟨positive, place⟩ := atLine?_eq_some_iff.mp found
    obtain ⟨other, hother, restates⟩ := exists_right_of_forall₂ same place
    obtain ⟨name, tokens, tokens', args, args', numbers⟩ := restates.call role
    refine ⟨other, atLine?_eq_some_iff.mpr ⟨positive, hother⟩, restates.role.trans role, name,
      tokens, tokens', args, args', numbers.imp fun token token' both => ?_⟩
    obtain ⟨n, read, read'⟩ := both
    exact ⟨n, .of_read read, .of_read read'⟩

/-- Values pulled back along the map that moves nothing are these values. -/
theorem pulledBack_id (values : List Value) : pulledBack id values.length values = values := by
  have length : (pulledBack id values.length values).length = values.length := by
    rw [pulledBack, List.length_map, List.length_range]
  refine List.ext_getElem? fun i => ?_
  by_cases bound : i < values.length
  · rw [List.getElem?_eq_getElem bound]
    exact getElem?_pulledBack bound (List.getElem?_eq_getElem bound)
  · rw [List.getElem?_eq_none (by omega), List.getElem?_eq_none (by omega)]

/-- The lines of restated commands get the values of the commands. -/
theorem values_of_restates {slots slots' : List Slot} {kinds kinds' : List Kind}
    {values values' : List Value} (same : List.Forall₂ Restates commands others)
    (h : Accepted catalog commands slots kinds values)
    (h' : Accepted catalog others slots' kinds' values') : values' = values := by
  have first : ∀ ground, commands.head? = some ground → ground.role? = some .ground := by
    obtain ⟨ground, rest, rfl, role, -⟩ := h.exists_ground
    rintro _ ⟨⟩
    exact role
  have solution := h.settles.evaluates.eq_of_solves
    ((mapsLines_of_restates same first).solves h h')
  have length : commands.length = values'.length :=
    same.length_eq.trans h'.length_values.symm
  rwa [length, pulledBack_id] at solution

end Program

end Commands

end RelCalc
