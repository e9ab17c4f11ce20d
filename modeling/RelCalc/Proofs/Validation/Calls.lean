/-
  `Proofs.Validation.Calls`: what the check of calls accepts.

  The check goes through the commands with the list of the kinds found so far.
  Each layer of it, one operand, the operands of a call, a call, the whole list,
  has a lemma that says when it passes, and one that says what it reports when it
  does not.  An operand passes when it refers to an earlier line of the expected
  kind; everything else is counting operands.
-/
import Mathlib.Data.List.Induction
import RelCalc.Proofs.Reference
import RelCalc.Validation.Verdict

set_option autoImplicit false

namespace RelCalc.Validation

open Outcome

/-! ## One operand -/

section Operand

variable {kinds : List Kind} {op : Operation} {name : String} {report : Cause → Fault}

/-- An operand passes when the line it refers to has the expected kind; for the first operand
this has to be the kind that the operation works on. -/
theorem checkOperand_eq_ok_iff {position : Nat} {token : String} {expected : Kind} :
    checkOperand kinds op name report position token expected = .ok () ↔
      referent? kinds token = some expected ∧ (position = 1 → expected = op.level) := by
  rw [referent?_eq_some_iff]
  unfold checkOperand
  cases read : Text.readNatural token with
  | error fault => cases fault <;> simp
  | ok target =>
    cases target with
    | zero => simp [atLine?]
    | succ index =>
      cases found : kinds[index]? with
      | none => simp [atLine?, found]
      | some actual =>
        simp only [Nat.add_one_ne_zero, if_false, Nat.add_sub_cancel, found, Except.ok.injEq,
          exists_eq_left', atLine?, Option.some.injEq]
        by_cases same : actual = expected
        · subst same
          by_cases first : position = 1 ∧ actual ≠ op.level
          · simp [first]
          · have level : position = 1 → actual = op.level := by simpa using first
            simpa [first] using level
        · simp only [same, false_and, iff_false, ne_eq, not_false_eq_true, if_true]
          split <;> simp

/-- The causes that are about one operand of a call. -/
def IsOperandCause (cause : Cause) : Prop := cause.category = .semantic ∧ cause.rule = "operand"

/-- A number that does not pass is reported as a bad operand. -/
theorem checkOperand_error {position target : Nat} {token : String} {expected : Kind}
    {fault : Fault} (read : Text.readNatural token = .ok target)
    (h : checkOperand kinds op name report position token expected = .error fault) :
    ∃ cause, fault = report cause ∧ IsOperandCause cause := by
  simp only [checkOperand, read] at h
  split at h
  · exact ⟨_, (Except.error.inj h).symm, rfl, rfl⟩
  split at h
  · exact ⟨_, (Except.error.inj h).symm, rfl, rfl⟩
  split at h
  · exact ⟨_, (Except.error.inj h).symm, rfl, rfl⟩
  split at h
  · exact ⟨_, (Except.error.inj h).symm, rfl, rfl⟩
  · cases h

/-! ## The operands of a call -/

/-- Operands pass when each refers to a line of its kind, and the first kind is the one that the
operation works on. -/
theorem checkOperands_eq_ok_iff {position : Nat} (positive : 1 ≤ position)
    {pairs : List (String × Kind)} :
    checkOperands kinds op name report position pairs = .ok () ↔
      (∀ pair ∈ pairs, referent? kinds pair.1 = some pair.2) ∧
        (position = 1 → ∀ pair, pairs.head? = some pair → pair.2 = op.level) := by
  induction pairs generalizing position with
  | nil => simp [checkOperands]
  | cons pair rest ih =>
    obtain ⟨token, expected⟩ := pair
    have later : position + 1 ≠ 1 := by omega
    simp only [checkOperands, check_bind_eq_ok_iff, checkOperand_eq_ok_iff,
      ih (Nat.le_add_left 1 _), later, false_implies, and_true, List.forall_mem_cons,
      List.head?_cons, Option.some.injEq, forall_eq']
    exact and_right_comm

/-- Numbers that do not pass are reported as a bad operand. -/
theorem checkOperands_error {position : Nat} {pairs : List (String × Kind)} {fault : Fault}
    (read : ∀ pair ∈ pairs, ∃ target, Text.readNatural pair.1 = .ok target)
    (h : checkOperands kinds op name report position pairs = .error fault) :
    ∃ cause, fault = report cause ∧ IsOperandCause cause := by
  induction pairs generalizing position with
  | nil => simp [checkOperands] at h
  | cons pair rest ih =>
    obtain ⟨⟨target, hread⟩, hrest⟩ := List.forall_mem_cons.mp read
    rcases bind_eq_error_iff.mp h with hfirst | ⟨_, _, hlater⟩
    · exact checkOperand_error hread hfirst
    · exact ih hrest hlater

end Operand
/-! ## One call -/

/-- Operands that refer to lines of the kinds of an operation, the first kind being the one that
the operation works on. -/
structure Fits (kinds : List Kind) (op : Operation) (tokens : List String) : Prop where
  referents : List.Forall₂ (fun token kind => referent? kinds token = some kind) tokens op.operands
  level : ∀ kind, op.operands.head? = some kind → kind = op.level

theorem Fits.numbers {kinds : List Kind} {op : Operation} {tokens : List String}
    (h : Fits kinds op tokens) : ∀ token ∈ tokens, ∃ n, Text.readNatural token = .ok n := by
  refine forall_mem_of_forall₂ h.referents fun token kind referent => ?_
  obtain ⟨n, hn, -⟩ := referent?_eq_some_iff.mp referent
  exact ⟨n, hn⟩

/-- The operands of a call pass when they fit. -/
theorem checkOperands_zip_eq_ok_iff {kinds : List Kind} {op : Operation} {name : String}
    {report : Cause → Fault} {tokens : List String} (arity : op.arity = tokens.length) :
    checkOperands kinds op name report 1 (tokens.zip op.operands) = .ok () ↔
      Fits kinds op tokens := by
  have length : tokens.length = op.operands.length := arity.symm
  have heads : (tokens.zip op.operands).head?.map Prod.snd = op.operands.head? := by
    rw [← List.head?_map, List.map_snd_zip (by omega)]
  rw [checkOperands_eq_ok_iff (Nat.le_refl 1)]
  constructor
  · intro h
    obtain ⟨referents, first⟩ := h
    constructor
    · refine List.forall₂_iff_zip.mpr ⟨length, ?_⟩
      intro token kind member
      exact referents (token, kind) member
    · intro kind hkind
      rw [← heads, Option.map_eq_some_iff] at hkind
      obtain ⟨pair, hpair, rfl⟩ := hkind
      exact first rfl pair hpair
  · intro h
    obtain ⟨referents, level⟩ := h
    constructor
    · rintro ⟨token, expected⟩ member
      exact (List.forall₂_iff_zip.mp referents).2 member
    · intro _ pair hpair
      apply level
      rw [← heads, hpair]
      rfl

/-- A diagnostic about a command that stands after lines of the given kinds. -/
def reportOn (command : Command) (kinds : List Kind) (cause : Cause) : Fault :=
  .diagnostic ⟨cause, command.line, some (kinds.length + 1)⟩

section Call

variable {catalog : Catalog} {kinds : List Kind} {command : Command} {name : String}
  {tokens : List String} {op : Operation}

/-- A call without a name has no kind. -/
theorem callKind_of_nil (args : command.args = []) :
    callKind catalog kinds command = .error (reportOn command kinds .namelessCall) := by
  simp only [callKind, args]
  rfl

/-- A call of an operation that does not exist has no kind. -/
theorem callKind_of_unknown (args : command.args = name :: tokens)
    (unknown : catalog.find? name = none) :
    callKind catalog kinds command = .error (reportOn command kinds (.unknownOperation name)) := by
  simp only [callKind, args, unknown]
  rfl

/-- A call with a wrong number of operands has no kind. -/
theorem callKind_of_arity (args : command.args = name :: tokens)
    (found : catalog.find? name = some op) (arity : op.arity ≠ tokens.length) :
    callKind catalog kinds command =
      .error (reportOn command kinds (.arity name op.arity tokens.length)) := by
  simp only [callKind, args, found, ne_eq, arity, not_false_eq_true, if_true]
  rfl

/-- Any other call has the result kind of its operation if its operands pass. -/
theorem callKind_of_operands (args : command.args = name :: tokens)
    (found : catalog.find? name = some op) (arity : op.arity = tokens.length) :
    callKind catalog kinds command = (do
      checkOperands kinds op name (reportOn command kinds) 1 (tokens.zip op.operands)
      return op.result) := by
  simp only [callKind, args, found, ne_eq, arity, not_true_eq_false, if_false]
  rfl

/-- A call passes when it names an operation and its operands fit; its kind is the result kind. -/
theorem callKind_eq_ok_iff {kind : Kind} :
    callKind catalog kinds command = .ok kind ↔
      ∃ name tokens op, command.args = name :: tokens ∧ catalog.find? name = some op ∧
        Fits kinds op tokens ∧ op.result = kind := by
  constructor
  · intro h
    cases args : command.args with
    | nil => simp [callKind_of_nil args] at h
    | cons name tokens =>
      cases found : catalog.find? name with
      | none => simp [callKind_of_unknown args found] at h
      | some op =>
        by_cases arity : op.arity = tokens.length
        · rw [callKind_of_operands args found arity, check_bind_eq_ok_iff,
            checkOperands_zip_eq_ok_iff arity, pure_eq_ok_iff] at h
          exact ⟨name, tokens, op, rfl, found, h⟩
        · simp [callKind_of_arity args found arity] at h
  · rintro ⟨name, tokens, op, args, found, fits, rfl⟩
    have arity : op.arity = tokens.length := fits.referents.length_eq.symm
    rw [callKind_of_operands args found arity, check_bind_eq_ok_iff,
      checkOperands_zip_eq_ok_iff arity, pure_eq_ok_iff]
    exact ⟨fits, rfl⟩

/-- A call of numbers that has no kind is reported for its operation, its operand count or an
operand. -/
theorem callKind_error {fault : Fault} (args : command.args = name :: tokens)
    (read : ∀ token ∈ tokens, ∃ target, Text.readNatural token = .ok target)
    (h : callKind catalog kinds command = .error fault) :
    ∃ cause, fault = reportOn command kinds cause ∧
      (catalog.find? name = none ∧ cause = .unknownOperation name ∨
        ∃ op, catalog.find? name = some op ∧
          (op.arity ≠ tokens.length ∧ cause = .arity name op.arity tokens.length ∨
            op.arity = tokens.length ∧ IsOperandCause cause)) := by
  cases found : catalog.find? name with
  | none =>
    rw [callKind_of_unknown args found] at h
    exact ⟨_, (Except.error.inj h).symm, .inl ⟨rfl, rfl⟩⟩
  | some op =>
    by_cases arity : op.arity = tokens.length
    · rw [callKind_of_operands args found arity] at h
      have refused : checkOperands kinds op name (reportOn command kinds) 1
          (tokens.zip op.operands) = .error fault := by
        rcases bind_eq_error_iff.mp h with hchecked | ⟨_, _, himpossible⟩
        · exact hchecked
        · cases himpossible
      have numbers : ∀ pair ∈ tokens.zip op.operands,
          ∃ target, Text.readNatural pair.1 = .ok target :=
        fun pair member => read pair.1 (List.of_mem_zip member).1
      obtain ⟨cause, hfault, hcause⟩ := checkOperands_error numbers refused
      exact ⟨cause, hfault, .inr ⟨op, rfl, .inr ⟨arity, hcause⟩⟩⟩
    · rw [callKind_of_arity args found arity] at h
      exact ⟨_, (Except.error.inj h).symm, .inr ⟨op, rfl, .inl ⟨arity, rfl⟩⟩⟩

end Call

/-! ## The whole list -/

/-- The kind of the value a command will hold, as far as the command itself tells. -/
def staticKind? (catalog : Catalog) (command : Command) : Option Kind :=
  match command.role? with
  | none => none
  | some .ground | some .set => some .set
  | some .relation => some .relation
  | some .call => (command.args.head?.bind catalog.find?).map Operation.result

/-- A command whose operation exists and whose operands fit, after lines of the given kinds. -/
def CallFits (catalog : Catalog) (kinds : List Kind) (command : Command) : Prop :=
  ∃ name tokens op, command.args = name :: tokens ∧ catalog.find? name = some op ∧
    Fits kinds op tokens

section Commands

variable {catalog : Catalog} {kinds : List Kind}

/-- A command passes when it has a static kind and, if it is a call, fits. -/
theorem commandKind_eq_ok_iff {command : Command} {kind : Kind} :
    commandKind catalog kinds command = .ok kind ↔
      staticKind? catalog command = some kind ∧
        (command.role? = some .call → CallFits catalog kinds command) := by
  unfold commandKind staticKind?
  cases role : command.role? with
  | none => simp
  | some found =>
    cases found with
    | ground | set | relation => simp
    | call =>
      simp only [callKind_eq_ok_iff, forall_const, CallFits]
      constructor
      · intro h
        obtain ⟨name, tokens, op, args, found, fits, rfl⟩ := h
        exact ⟨by simp [args, found], name, tokens, op, args, found, fits⟩
      · intro h
        obtain ⟨hkind, name, tokens, op, args, found, fits⟩ := h
        refine ⟨name, tokens, op, args, found, fits, ?_⟩
        simpa [args, found] using hkind

/-- Only a call is refused, when every command has a role. -/
theorem callKind_of_commandKind_error {command : Command} {fault : Fault}
    (known : command.role? ≠ none) (h : commandKind catalog kinds command = .error fault) :
    command.role? = some .call ∧ callKind catalog kinds command = .error fault := by
  unfold commandKind at h
  split at h
  · rename_i role
    exact absurd role known
  · cases h
  · cases h
  · cases h
  · rename_i role
    exact ⟨role, h⟩

/-- The last of several commands is checked after all others. -/
theorem commandKinds_concat (commands : List Command) (command : Command) :
    commandKinds catalog kinds (commands ++ [command]) = (do
      let found ← commandKinds catalog kinds commands
      let kind ← commandKind catalog found command
      return found ++ [kind]) := by
  induction commands generalizing kinds with
  | nil => rfl
  | cons first rest ih =>
    simp only [List.cons_append, commandKinds]
    cases commandKind catalog kinds first with
    | error fault => rfl
    | ok kind => exact ih

/-- Each kind found is that of one command. -/
theorem length_of_map_staticKind? {commands : List Command}
    (h : commands.map (staticKind? catalog) = kinds.map some) : kinds.length = commands.length := by
  simpa using (congrArg List.length h).symm

/-- The list passes when every command has a static kind and every call fits the lines before it. -/
theorem commandKinds_eq_ok_iff {commands : List Command} :
    commandKinds catalog [] commands = .ok kinds ↔
      commands.map (staticKind? catalog) = kinds.map some ∧
        ∀ (i : Nat) (command : Command), commands[i]? = some command →
          command.role? = some .call → CallFits catalog (kinds.take i) command := by
  induction commands using List.reverseRecOn generalizing kinds with
  | nil => cases kinds <;> simp [commandKinds]
  | append_singleton commands last ih =>
    simp only [commandKinds_concat, bind_eq_ok_iff, pure_eq_ok_iff, commandKind_eq_ok_iff, ih,
      getElem?_concat_eq_some_iff]
    constructor
    · intro h
      obtain ⟨found, ⟨statics, earlier⟩, kind, ⟨static, fits⟩, rfl⟩ := h
      have length := length_of_map_staticKind? statics
      refine ⟨by simp [statics, static], ?_⟩
      rintro i command (inside | ⟨rfl, rfl⟩) role
      · have bound := (List.getElem?_eq_some_iff.mp inside).1
        rw [List.take_append_of_le_length (by omega)]
        exact earlier i command inside role
      · rw [← length, List.take_left]
        exact fits role
    · intro h
      obtain ⟨statics, all⟩ := h
      rw [List.map_append, List.append_eq_map_iff] at statics
      obtain ⟨found, kinds', rfl, hfound, hlast⟩ := statics
      obtain ⟨kind, rfl, static⟩ := List.map_eq_singleton_iff.mp hlast
      have length := length_of_map_staticKind? hfound.symm
      refine ⟨found, ⟨hfound.symm, ?_⟩, kind, ⟨static.symm, ?_⟩, rfl⟩
      · intro i command inside role
        have bound := (List.getElem?_eq_some_iff.mp inside).1
        have fits := all i command (.inl inside) role
        rwa [List.take_append_of_le_length (by omega)] at fits
      · intro role
        have fits := all commands.length last (.inr ⟨rfl, rfl⟩) role
        rwa [← length, List.take_left] at fits

/-- A list that does not pass has a first command that does not, after commands that do. -/
theorem commandKinds_error {commands : List Command} {fault : Fault}
    (h : commandKinds catalog [] commands = .error fault) :
    ∃ earlier command later found, commands = earlier ++ command :: later ∧
      commandKinds catalog [] earlier = .ok found ∧
        commandKind catalog found command = .error fault := by
  induction commands using List.reverseRecOn with
  | nil => cases h
  | append_singleton commands last ih =>
    rw [commandKinds_concat] at h
    rcases bind_eq_error_iff.mp h with hearlier | ⟨found, hfound, hlast⟩
    · obtain ⟨earlier, command, later, kinds, rfl, hkinds, hcommand⟩ := ih hearlier
      exact ⟨earlier, command, later ++ [last], kinds, by simp, hkinds, hcommand⟩
    · rcases bind_eq_error_iff.mp hlast with hcommand | ⟨_, _, himpossible⟩
      · exact ⟨commands, last, [], found, rfl, hfound, hcommand⟩
      · cases himpossible

end Commands

end RelCalc.Validation
