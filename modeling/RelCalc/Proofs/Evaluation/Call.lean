/-
  `Proofs.Evaluation.Call`: one call, checked and evaluated.

  The check of a call looks at the kinds of the lines before it, the evaluation at
  their values.  When the values have these kinds, both answer alike: what passes
  the check is evaluated to a value of the kind that the check promised, and what
  the check refuses is refused by the evaluation, for a reason of the same sort.
-/
import RelCalc.Program.Evaluation
import RelCalc.Proofs.Evaluation.Equations
import RelCalc.Proofs.Typing
import RelCalc.Proofs.Validation.Calls

set_option autoImplicit false

namespace RelCalc

open Outcome Validation

/-- Tokens read as the numbers that are their operands. -/
def ReadAs (tokens : List String) (operands : List Int) : Prop :=
  List.Forall₂ (fun (token : String) (operand : Int) =>
    ∃ n : Nat, Text.readNatural token = .ok n ∧ operand = n) tokens operands

section ReadAs

variable {tokens : List String} {operands : List Int}

theorem ReadAs.numbers (h : ReadAs tokens operands) :
    ∀ token ∈ tokens, ∃ n, Text.readNatural token = .ok n := by
  refine forall_mem_of_forall₂ h fun token operand read => ?_
  obtain ⟨n, hn, -⟩ := read
  exact ⟨n, hn⟩

/-- Numbers that were read can be written again. -/
theorem ReadAs.spelled (h : ReadAs tokens operands) :
    ∀ operand ∈ operands, Text.isSpelled operand = true := by
  refine forall_mem_of_forall₂ h.flip fun operand token read => ?_
  obtain ⟨n, hn, rfl⟩ := read
  exact Text.isSpelled_of_readInteger (Text.readInteger_of_readNatural hn)

end ReadAs

/-- A fault that says an operand has no usable value. -/
def IsUnresolved (fault : Fault) : Prop :=
  ∃ d : Diagnostic, fault = .diagnostic d ∧ d.cause.category = .unresolved

/-- A cause that the check reports, and one of the same sort that the evaluation gives. -/
inductive Corresponds : Cause → Cause → Prop where
  /-- There is no such operation. -/
  | operation (name : String) : Corresponds (.unknownOperation name) (.noSuchOperation name)
  /-- The number of operands is wrong. -/
  | count (name : String) (expected actual : Nat) :
      Corresponds (.arity name expected actual) (.operandCount name expected actual)
  /-- An operand cannot be used. -/
  | operand {reported given : Cause} (refused : IsOperandCause reported)
      (unresolved : given.category = .unresolved) : Corresponds reported given

namespace Program

/-- The first lines of a program have values, and these are the given ones. -/
def Holds (p : Program) (values : List Value) : Prop := values.map some <+: p.slots.map Slot.value?

/-! ## Lines that have values -/

section Slots

variable {p : Program} {slot : Slot}

theorem slot_eq_ok_iff_slot? {index : Int} :
    p.slot index = .ok slot ↔ p.slot? index = some slot := by
  rw [Program.slot]
  cases p.slot? index <;> simp

/-- A line of a program has a positive number. -/
theorem exists_of_slot? {index : Int} (found : p.slot? index = some slot) :
    ∃ i : Nat, index = (i + 1 : Nat) ∧ p.slots[i]? = some slot := by
  simp only [slot?, Option.ite_none_right_eq_some] at found
  exact ⟨index.toNat - 1, by omega, found.2⟩

theorem slot?_succ (p : Program) (i : Nat) : p.slot? (i + 1 : Nat) = p.slots[i]? := by
  rw [slot?, if_pos (by omega)]
  rfl

theorem slot_succ {i : Nat} (found : p.slots[i]? = some slot) : p.slot (i + 1 : Nat) = .ok slot :=
  slot_eq_ok_iff_slot?.mpr ((p.slot?_succ i).trans found)

/-- A line has a value when its slot has it. -/
theorem valueAt_eq_ok_iff {index : Int} {line : Option Int} {value : Value} :
    p.valueAt index line = .ok value ↔ ∃ i slot, index = (i + 1 : Nat) ∧
      p.slots[i]? = some slot ∧ slot.value? = some value := by
  unfold Program.valueAt
  constructor
  · intro h
    cases found : p.slot? index with
    | none =>
      simp only [found] at h
      split at h <;> cases h
    | some slot =>
      obtain ⟨i, rfl, held⟩ := exists_of_slot? found
      cases hvalue : slot.value? with
      | none => simp only [found, hvalue, reduceCtorEq] at h
      | some value' =>
        simp only [found, hvalue, Except.ok.injEq] at h
        subst h
        exact ⟨i, slot, rfl, held, hvalue⟩
  · rintro ⟨i, slot, rfl, held, hvalue⟩
    rw [slot?_succ, held]
    simp only [hvalue]

theorem slot?_eq_some_iff {index : Nat} {slot : Slot} :
    p.slot? index = some slot ↔ 1 ≤ index ∧ p.slots[index - 1]? = some slot := by
  have positive : (1 : Int) ≤ index ↔ 1 ≤ index := by omega
  simp only [slot?, positive, Int.toNat_natCast, Option.ite_none_right_eq_some]

end Slots

section Holds

variable {p : Program} {values : List Value}

theorem Holds.slot? (holds : p.Holds values) {index : Nat} {value : Value}
    (found : atLine? values index = some value) :
    ∃ slot, p.slot? index = some slot ∧ slot.value? = some value := by
  obtain ⟨positive, hvalue⟩ := atLine?_eq_some_iff.mp found
  obtain ⟨bound, -⟩ := List.getElem?_eq_some_iff.mp hvalue
  obtain ⟨rest, hrest⟩ := holds
  have hline : (p.slots.map Slot.value?)[index - 1]? = some (some value) := by
    rw [← hrest, List.getElem?_append_left (by simpa using bound), List.getElem?_map, hvalue]
    rfl
  rw [List.getElem?_map, Option.map_eq_some_iff] at hline
  obtain ⟨slot, hslot, hslotValue⟩ := hline
  exact ⟨slot, slot?_eq_some_iff.mpr ⟨positive, hslot⟩, hslotValue⟩

theorem Holds.valueAt (holds : p.Holds values) {index : Nat} {value : Value} (line : Option Int)
    (found : atLine? values index = some value) : p.valueAt index line = .ok value := by
  obtain ⟨slot, hslot, hvalue⟩ := holds.slot? found
  simp only [Program.valueAt, hslot, hvalue]

theorem Holds.ground (holds : p.Holds values) {value : Value} (first : values.head? = some value) :
    p.ground = .ok (some value) := by
  obtain ⟨rest, hrest⟩ := holds
  cases values with
  | nil => cases first
  | cons head others =>
    cases first
    unfold Program.ground
    cases hslots : p.slots with
    | nil => simp [hslots] at hrest
    | cons slot slots =>
      simp only [hslots, List.map_cons, List.cons_append, List.cons.injEq] at hrest
      rw [hrest.1]

end Holds

/-! ## Operands -/

section Operands

variable {p : Program} {values : List Value} {op : Operation} {call : Call}

theorem resolveOperand_of_not_before {operand : Int} {expected : Kind}
    (behind : (call.index : Int) ≤ operand) :
    p.resolveOperand op call operand expected =
      if Text.isSpelled operand then call.refuse (.notBefore operand call.index)
      else .error .notSpelled := by
  rw [resolveOperand, if_pos behind]

theorem resolveOperand_of_before {operand : Int} {expected : Kind}
    (before : operand < call.index) :
    p.resolveOperand op call operand expected = (do
      let value ← p.valueAt operand call.line
      if value.kind = expected then return value
      else call.refuse (.valueKind op.name expected operand value.kind)) := by
  rw [resolveOperand, if_neg (Int.not_le.mpr before)]

/-- An operand is resolved to the value of a line before the call, if that has the kind expected. -/
theorem resolveOperand_eq_ok_iff_valueAt {operand : Int} {expected : Kind} {value : Value} :
    p.resolveOperand op call operand expected = .ok value ↔
      operand < call.index ∧ p.valueAt operand call.line = .ok value ∧ value.kind = expected := by
  by_cases before : operand < call.index
  · rw [resolveOperand_of_before before, bind_eq_ok_iff]
    constructor
    · intro ⟨held, found, checked⟩
      split at checked
      · rename_i kind
        obtain rfl := pure_eq_ok_iff.mp checked
        exact ⟨before, found, kind⟩
      · cases checked
    · rintro ⟨-, found, kind⟩
      refine ⟨value, found, ?_⟩
      rw [if_pos kind]
      rfl
  · rw [resolveOperand_of_not_before (Int.not_lt.mp before)]
    constructor
    · intro impossible
      split at impossible <;> cases impossible
    · exact fun resolved => absurd resolved.1 before

/-- The operand of a call is resolved to the value of the line it refers to, if that has the kind
expected. -/
theorem resolveOperand_eq_ok_iff (holds : p.Holds values) (place : call.index = values.length + 1)
    {target : Nat} {expected : Kind} {value : Value} :
    p.resolveOperand op call target expected = .ok value ↔
      atLine? values target = some value ∧ value.kind = expected := by
  rw [resolveOperand_eq_ok_iff_valueAt]
  constructor
  · intro ⟨before, found, kind⟩
    cases line : atLine? values target with
    | none =>
      -- Every line before the call has a value, so only the number zero refers to none of them.
      have zero : target = 0 := by
        by_contra positive
        have bound : target - 1 < values.length := by omega
        have held : atLine? values target = some values[target - 1] :=
          atLine?_eq_some_iff.mpr ⟨by omega, List.getElem?_eq_getElem bound⟩
        rw [line] at held
        cases held
      obtain ⟨i, slot, positive, -⟩ := valueAt_eq_ok_iff.mp found
      omega
    | some held =>
      rw [holds.valueAt call.line line] at found
      cases found
      exact ⟨rfl, kind⟩
  · intro ⟨found, kind⟩
    have bound := le_length_of_atLine? found
    exact ⟨by omega, holds.valueAt call.line found, kind⟩

theorem valueAt_error {index : Int} {line : Option Int} {fault : Fault}
    (spelled : Text.isSpelled index = true) (h : p.valueAt index line = .error fault) :
    IsUnresolved fault := by
  unfold Program.valueAt at h
  split at h
  · rw [if_pos spelled] at h
    exact ⟨_, (Except.error.inj h).symm, rfl⟩
  split at h
  · exact ⟨_, (Except.error.inj h).symm, rfl⟩
  · cases h

/-- An operand that is not resolved is reported as one without a usable value. -/
theorem resolveOperand_error {operand : Int} {expected : Kind} {fault : Fault}
    (spelled : Text.isSpelled operand = true)
    (h : p.resolveOperand op call operand expected = .error fault) : IsUnresolved fault := by
  by_cases before : operand < call.index
  · rw [resolveOperand_of_before before] at h
    rcases bind_eq_error_iff.mp h with hvalue | ⟨value, -, hkind⟩
    · exact valueAt_error spelled hvalue
    · split at hkind
      · cases hkind
      · exact ⟨_, (Except.error.inj hkind).symm, rfl⟩
  · rw [resolveOperand_of_not_before (Int.not_lt.mp before), if_pos spelled] at h
    exact ⟨_, (Except.error.inj h).symm, rfl⟩

theorem resolveAll_error {pairs : List (Int × Kind)} {fault : Fault}
    (spelled : ∀ pair ∈ pairs, Text.isSpelled pair.1 = true)
    (h : p.resolveAll op call pairs = .error fault) : IsUnresolved fault := by
  induction pairs with
  | nil => cases h
  | cons pair rest ih =>
    obtain ⟨first, later⟩ := List.forall_mem_cons.mp spelled
    rcases bind_eq_error_iff.mp h with hfirst | ⟨value, -, hlater⟩
    · exact resolveOperand_error first hfirst
    · rcases bind_eq_error_iff.mp hlater with hrest | ⟨_, -, himpossible⟩
      · exact ih later hrest
      · cases himpossible

theorem spelled_zip {operands : List Int} (kinds : List Kind)
    (spelled : ∀ operand ∈ operands, Text.isSpelled operand = true) :
    ∀ pair ∈ operands.zip kinds, Text.isSpelled pair.1 = true :=
  fun _ member => spelled _ (List.of_mem_zip member).1

theorem resolve_of_count (count : call.operands.length = op.arity) :
    p.resolve op call = p.resolveAll op call (call.operands.zip op.operands) := by
  rw [resolve, if_neg (not_not.mpr count)]

theorem resolve_of_other_count (count : call.operands.length ≠ op.arity) :
    p.resolve op call =
      call.refuse (.operandCount op.name op.arity call.operands.length) := by
  rw [resolve, if_pos count]

/-- The operands of a call are resolved if their number is right and each of them is. -/
theorem resolve_eq_ok_iff_resolveAll {found : List Value} :
    p.resolve op call = .ok found ↔ call.operands.length = op.arity ∧
      p.resolveAll op call (call.operands.zip op.operands) = .ok found := by
  by_cases count : call.operands.length = op.arity
  · rw [resolve_of_count count]
    exact (and_iff_right count).symm
  · rw [resolve_of_other_count count]
    constructor
    · intro impossible
      cases impossible
    · exact fun resolved => absurd resolved.1 count

theorem resolveAll_zip_eq_ok_iff (holds : p.Holds values) (place : call.index = values.length + 1)
    {tokens : List String} {operands : List Int} (read : ReadAs tokens operands)
    {kinds : List Kind} (arity : operands.length = kinds.length) {found : List Value} :
    p.resolveAll op call (operands.zip kinds) = .ok found ↔
      Referents values tokens found ∧ found.map Value.kind = kinds := by
  unfold Referents
  induction read generalizing kinds found with
  | nil =>
    obtain rfl : kinds = [] := List.eq_nil_of_length_eq_zero arity.symm
    simp only [List.zip_nil_left, resolveAll, Except.ok.injEq, List.forall₂_nil_left_iff]
    constructor
    · rintro rfl
      exact ⟨rfl, rfl⟩
    · exact fun h => h.1.symm
  | cons hoperand _ ih =>
    obtain ⟨target, htarget, rfl⟩ := hoperand
    cases kinds with
    | nil => cases arity
    | cons kind kinds =>
      simp only [List.zip_cons_cons, resolveAll, bind_eq_ok_iff, pure_eq_ok_iff,
        resolveOperand_eq_ok_iff holds place, ih (Nat.succ.inj arity),
        List.forall₂_cons_left_iff, referent?_eq_some_iff, htarget, Except.ok.injEq,
        exists_eq_left']
      constructor
      · rintro ⟨value, ⟨hvalue, rfl⟩, rest, ⟨hrest, rfl⟩, rfl⟩
        exact ⟨⟨value, rest, hvalue, hrest, rfl⟩, rfl⟩
      · rintro ⟨⟨value, rest, hvalue, hrest, rfl⟩, hkinds⟩
        obtain ⟨hkind, hkinds⟩ := List.cons.inj hkinds
        exact ⟨value, ⟨hvalue, hkind⟩, rest, ⟨hrest, hkinds⟩, rfl⟩

/-- The operands of a call are resolved to the values they refer to, if these have the kinds of
the operation. -/
theorem resolve_eq_ok_iff (holds : p.Holds values) (place : call.index = values.length + 1)
    {tokens : List String} (read : ReadAs tokens call.operands) {found : List Value} :
    p.resolve op call = .ok found ↔
      Referents values tokens found ∧ found.map Value.kind = op.operands := by
  rw [resolve_eq_ok_iff_resolveAll]
  constructor
  · intro ⟨arity, resolved⟩
    exact (resolveAll_zip_eq_ok_iff holds place read arity).mp resolved
  · intro ⟨referents, hkinds⟩
    have arity : call.operands.length = op.arity := by
      rw [Operation.arity, ← hkinds, List.length_map, ← List.Forall₂.length_eq referents]
      exact (List.Forall₂.length_eq read).symm
    exact ⟨arity, (resolveAll_zip_eq_ok_iff holds place read arity).mpr ⟨referents, hkinds⟩⟩

end Operands

/-! ## A call -/

section Compute

variable {p : Program} {catalog : Catalog} {values : List Value} {call : Call}
  {command : Command} {tokens : List String}

theorem compute_of_unknown (unknown : catalog.find? call.name = none) :
    p.compute catalog call = call.refuse (.noSuchOperation call.name) := by
  simp only [compute, unknown]

theorem compute_of_found {op : Operation} (found : catalog.find? call.name = some op) :
    p.compute catalog call = (do
      let operands ← p.resolve op call
      let ground ← p.ground
      op.apply ground operands) := by
  simp only [compute, found]

/-- A call that passes the check is evaluated to a value of the kind that the check promised, and
this value satisfies the equation of its line. -/
theorem exists_compute_of_callKind (wellTyped : catalog.WellTyped) (holds : p.Holds values)
    {ground : FinSet Element} (first : values.head? = some (.set ground))
    (place : call.index = values.length + 1) (role : command.role? = some .call)
    (args : command.args = call.name :: tokens) (read : ReadAs tokens call.operands)
    {kind : Kind} (passes : callKind catalog (values.map Value.kind) command = .ok kind) :
    ∃ value, p.compute catalog call = .ok value ∧ value.kind = kind ∧
      Equation catalog values command value := by
  obtain ⟨name, others, op, args', found, fits, rfl⟩ := callKind_eq_ok_iff.mp passes
  obtain ⟨rfl, rfl⟩ := List.cons.inj (args.symm.trans args')
  obtain ⟨operands, referents, hkinds⟩ := forall₂_referent?_kinds_iff.mp fits.referents
  have hresolve : p.resolve op call = .ok operands :=
    (resolve_eq_ok_iff holds place read).mpr ⟨referents, hkinds⟩
  have member : op ∈ catalog.entries := (Catalog.mem_and_name_of_find? found).1
  obtain ⟨value, applied, hkind⟩ := wellTyped op member ground operands hkinds
  refine ⟨value, ?_, hkind, ?_⟩
  · rw [compute_of_found found, hresolve, holds.ground first]
    exact applied
  · exact .call call.name tokens op _ operands value role args found first referents applied

/-- A call that the check refuses is refused by the evaluation, for a reason of the same sort. -/
theorem compute_error_of_callKind_error
    (levels : ∀ op ∈ catalog.entries, ∀ kind, op.operands.head? = some kind → kind = op.level)
    (holds : p.Holds values) (place : call.index = values.length + 1)
    (args : command.args = call.name :: tokens) (read : ReadAs tokens call.operands)
    {fault : Fault} (refused : callKind catalog (values.map Value.kind) command = .error fault) :
    ∃ (reported : Cause) (given : Diagnostic),
      fault = reportOn command (values.map Value.kind) reported ∧
        p.compute catalog call = .error (.diagnostic given) ∧ Corresponds reported given.cause := by
  have length : call.operands.length = tokens.length := (List.Forall₂.length_eq read).symm
  obtain ⟨reported, rfl, why⟩ := callKind_error args read.numbers refused
  refine ⟨reported, ?_⟩
  rcases why with ⟨unknown, rfl⟩ | ⟨op, found, ⟨arity, rfl⟩ | ⟨arity, operand⟩⟩
  · exact ⟨_, rfl, compute_of_unknown unknown, .operation call.name⟩
  · have count : call.operands.length ≠ op.arity := by omega
    refine ⟨⟨.operandCount call.name op.arity tokens.length, call.line, some call.index⟩, rfl, ?_,
      .count call.name op.arity tokens.length⟩
    rw [compute_of_found found, resolve_of_other_count count, length,
      (Catalog.mem_and_name_of_find? found).2]
    rfl
  · rw [compute_of_found found]
    cases hresolve : p.resolve op call with
    | ok operands =>
      -- Operands that can be resolved fit, so the check would have passed.
      obtain ⟨referents, hkinds⟩ := (resolve_eq_ok_iff holds place read).mp hresolve
      have member : op ∈ catalog.entries := (Catalog.mem_and_name_of_find? found).1
      have fits : Fits (values.map Value.kind) op tokens :=
        ⟨forall₂_referent?_kinds_iff.mpr ⟨operands, referents, hkinds⟩, levels op member⟩
      have passes : callKind catalog (values.map Value.kind) command = .ok op.result :=
        callKind_eq_ok_iff.mpr ⟨call.name, tokens, op, args, found, fits, rfl⟩
      rw [passes] at refused
      cases refused
    | error given =>
      have count : call.operands.length = op.arity := by omega
      rw [resolve_of_count count] at hresolve
      obtain ⟨d, rfl, unresolved⟩ := resolveAll_error (spelled_zip _ read.spelled) hresolve
      exact ⟨d, rfl, rfl, .operand operand unresolved⟩

end Compute

/-! ## The line of a call -/

section Evaluate

variable {p : Program} {catalog : Catalog} {i : Nat} {line : Option Int} {name : String}
  {operands : List Int} {value : Value} {fault : Fault}

theorem attempt_ok {α : Type} (p : Program) (a : α) :
    p.attempt (.ok a) = (.ok a : Except Interruption α) := rfl

theorem callAt_of_call (found : p.slots[i]? = some ⟨i + 1, line, .call name operands⟩) :
    p.callAt (i + 1 : Nat) = .ok ⟨name, operands, line, i + 1⟩ := by
  rw [callAt, slot_succ found]
  rfl

theorem write_of_call (found : p.slots[i]? = some ⟨i + 1, line, .call name operands⟩)
    (value : Value) : p.write (i + 1 : Nat) value =
      .ok ⟨p.slots.set i ⟨i + 1, line, .result name value⟩⟩ := by
  rw [write, slot_succ found]
  rfl

/-- A call is overwritten with its result, which stays if it cannot be reported. -/
theorem replace_of_call (found : p.slots[i]? = some ⟨i + 1, line, .call name operands⟩)
    (value : Value) : p.replace (i + 1 : Nat) value =
      if operands.all Text.isSpelled && value.isSpelled then
        .ok ⟨p.slots.set i ⟨i + 1, line, .result name value⟩⟩
      else .error ⟨⟨p.slots.set i ⟨i + 1, line, .result name value⟩⟩, .notSpelled⟩ := by
  have reported : p.reports (i + 1 : Nat) value =
      (operands.all Text.isSpelled && value.isSpelled) := by
    rw [reports, slot?_succ, found]
    rfl
  rw [replace, write_of_call found, reported]
  rfl

/-- Evaluating a line that holds a call computes the call and writes the result in its place. -/
theorem evaluate_of_call (found : p.slots[i]? = some ⟨i + 1, line, .call name operands⟩) :
    p.evaluate catalog (i + 1 : Nat) =
      (p.attempt (p.compute catalog ⟨name, operands, line, i + 1⟩) >>= fun value =>
        p.replace (i + 1 : Nat) value) := by
  rw [evaluate, slot_succ found]
  show (p.attempt (p.callAt (i + 1 : Nat)) >>= fun call => p.evaluateCall catalog call) = _
  rw [callAt_of_call found]
  rfl

theorem evaluate_of_compute_error (found : p.slots[i]? = some ⟨i + 1, line, .call name operands⟩)
    (failed : p.compute catalog ⟨name, operands, line, i + 1⟩ = .error fault) :
    p.evaluate catalog (i + 1 : Nat) = .error ⟨p, fault⟩ := by
  rw [evaluate_of_call found, failed]
  rfl

theorem evaluate_of_compute (found : p.slots[i]? = some ⟨i + 1, line, .call name operands⟩)
    (spelled : ∀ operand ∈ operands, Text.isSpelled operand = true)
    (computed : p.compute catalog ⟨name, operands, line, i + 1⟩ = .ok value)
    (reported : value.isSpelled = true) : p.evaluate catalog (i + 1 : Nat) =
      .ok ⟨p.slots.set i ⟨i + 1, line, .result name value⟩⟩ := by
  rw [evaluate_of_call found, computed, attempt_ok]
  show p.replace (i + 1 : Nat) value = _
  rw [replace_of_call found, List.all_eq_true.mpr spelled, reported]
  rfl

/-- A result that cannot be reported is written all the same. -/
theorem evaluate_of_unspelled (found : p.slots[i]? = some ⟨i + 1, line, .call name operands⟩)
    (computed : p.compute catalog ⟨name, operands, line, i + 1⟩ = .ok value)
    (unreported : value.isSpelled = false) : p.evaluate catalog (i + 1 : Nat) =
      .error ⟨⟨p.slots.set i ⟨i + 1, line, .result name value⟩⟩, .notSpelled⟩ := by
  rw [evaluate_of_call found, computed, attempt_ok]
  show p.replace (i + 1 : Nat) value = _
  rw [replace_of_call found, unreported, Bool.and_false]
  rfl

end Evaluate

end Program

end RelCalc
