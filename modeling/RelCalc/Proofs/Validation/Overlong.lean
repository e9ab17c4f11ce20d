/-
  `Proofs.Validation.Overlong`: when validation ends without a verdict.

  A numeral of more than 4300 characters cannot be read, and the check of calls ends
  with a fault that is no diagnostic when it comes to one.  It comes to the first
  operand that does not pass, in the first call that does not, after all other rules
  have been kept.  So the fault appears exactly on the lists where that operand is such
  a numeral, and every other list that is refused is refused with a diagnostic.
-/
import RelCalc.Proofs.Validation.Violation

set_option autoImplicit false

namespace RelCalc.Validation

open Outcome

/-- A numeral that is longer than a number may be. -/
def Overlong (token : String) : Prop := (∃ n, Text.Denotes token n) ∧ 4300 < token.length

/-- The first operand of a call that does not pass is an overlong numeral of so many digits. -/
inductive CallOverruns (catalog : Catalog) (earlier : List Command) (command : Command) :
    Nat → Prop where
  | operand {name : String} {tokens : List String} {op : Operation} {k : Nat} {token : String}
      {expected : Kind} (args : command.args = name :: tokens) (known : op ∈ catalog.entries)
      (named : op.name = name) (arity : tokens.length = op.arity)
      (first : FirstAt (fun j (pair : String × Kind) =>
        ¬ OperandPasses catalog earlier op (j + 1) pair.1 pair.2)
          (tokens.zip op.operands) k (token, expected))
      (long : Overlong token) : CallOverruns catalog earlier command token.length

/-- All rules before that of calls are kept, and in the first call that does not pass the first
operand that does not is an overlong numeral of so many digits. -/
inductive Overruns (catalog : Catalog) (commands : List Command) : Nat → Prop where
  | call {command : Command} {i digits : Nat}
      (kept : ∀ rule ∈ Rule.calls.earlier, Keeps catalog commands rule)
      (first : FirstAt (fun j other => other.role? = some .call ∧
        ¬ CallPasses catalog (commands.take j) other) commands i command)
      (overruns : CallOverruns catalog (commands.take i) command digits) :
      Overruns catalog commands digits

section Call

variable {catalog : Catalog} {earlier : List Command} {kinds : List Kind} {op : Operation}
  {name token : String} {report : Cause → Fault} {fault : Fault} {position digits : Nat}
  {expected : Kind} {command : Command}

/-- An overlong numeral ends the check of an operand. -/
theorem checkOperand_of_overlong (long : Overlong token) :
    checkOperand kinds op name report position token expected =
      .error (.tooManyDigits token.length) := by
  have read := Text.readNatural_eq_tooLong_iff.mpr ⟨long.1, long.2, rfl⟩
  rw [checkOperand, read]

/-- An operand that does not pass is overlong, or it is reported. -/
theorem checkOperand_error_cases
    (refused : checkOperand kinds op name report position token expected = .error fault) :
    Overlong token ∧ fault = .tooManyDigits token.length ∨
      ∃ cause, fault = report cause ∧ IsOperandCause cause := by
  cases read : Text.readNatural token with
  | ok target => exact .inr (checkOperand_error read refused)
  | error why =>
    rw [checkOperand, read] at refused
    cases why with
    | malformed => exact .inr ⟨_, (Except.error.inj refused).symm, rfl, rfl⟩
    | tooLong digits =>
      obtain ⟨denotes, long, rfl⟩ := Text.readNatural_eq_tooLong_iff.mp read
      exact .inl ⟨⟨denotes, long⟩, (Except.error.inj refused).symm⟩

/-- A call that is refused overruns, or it is reported. -/
theorem callKind_error_cases (statics : earlier.map (staticKind? catalog) = kinds.map some)
    (refused : callKind catalog kinds command = .error fault) :
    (∃ digits, CallOverruns catalog earlier command digits ∧ fault = .tooManyDigits digits) ∨
      ∃ cause, fault = reportOn command kinds cause ∧ .invalid ∈ cause.category.ancestors := by
  cases args : command.args with
  | nil =>
    rw [callKind_of_nil args] at refused
    exact .inr ⟨_, (Except.error.inj refused).symm, List.mem_cons_self⟩
  | cons name tokens =>
    cases found : catalog.find? name with
    | none =>
      rw [callKind_of_unknown args found] at refused
      exact .inr ⟨_, (Except.error.inj refused).symm, List.mem_cons_self⟩
    | some op =>
      by_cases arity : op.arity = tokens.length
      · rw [callKind_of_operands args found arity] at refused
        rcases bind_eq_error_iff.mp refused with operands | ⟨_, _, impossible⟩
        · obtain ⟨k, token, expected, first, stopped⟩ :=
            exists_firstAt_of_checkOperands statics operands
          simp only [Nat.add_comm 1] at first
          rcases checkOperand_error_cases stopped with ⟨long, rfl⟩ | ⟨cause, rfl, semantic, -⟩
          · obtain ⟨known, named⟩ := Catalog.mem_and_name_of_find? found
            exact .inl ⟨_, .operand args known named arity.symm first long, rfl⟩
          · refine .inr ⟨cause, rfl, ?_⟩
            rw [semantic]
            exact List.mem_cons_self
        · cases impossible
      · rw [callKind_of_arity args found arity] at refused
        exact .inr ⟨_, (Except.error.inj refused).symm, List.mem_cons_self⟩

/-- The check of operands ends like the check of the first that does not pass. -/
theorem checkOperands_of_firstAt (statics : earlier.map (staticKind? catalog) = kinds.map some)
    {pairs : List (String × Kind)} {k : Nat}
    (first : FirstAt (fun j (pair : String × Kind) =>
      ¬ OperandPasses catalog earlier op (position + j) pair.1 pair.2) pairs k (token, expected))
    (refused : checkOperand kinds op name report (position + k) token expected = .error fault) :
    checkOperands kinds op name report position pairs = .error fault := by
  induction pairs generalizing position k with
  | nil => cases first.found
  | cons pair rest ih =>
    cases k with
    | zero =>
      obtain rfl := Option.some.inj first.found
      exact bind_eq_error_iff.mpr (.inl refused)
    | succ k =>
      have passes := not_not.mp (first.least 0 pair (Nat.succ_pos k) rfl)
      rw [Nat.add_zero, ← checkOperand_eq_ok_iff_operandPasses statics] at passes
      have later : FirstAt (fun j (pair : String × Kind) =>
          ¬ OperandPasses catalog earlier op (position + 1 + j) pair.1 pair.2) rest k
            (token, expected) := by
        refine ⟨first.found, ?_, fun j other before found => ?_⟩
        · have holds := first.holds
          rwa [Nat.add_comm k, ← Nat.add_assoc] at holds
        · rw [Nat.add_assoc, Nat.add_comm 1]
          exact first.least (j + 1) other (Nat.succ_lt_succ before) found
      rw [Nat.add_comm k, ← Nat.add_assoc] at refused
      exact bind_eq_error_iff.mpr (.inr ⟨(), passes, ih later refused⟩)

/-- A call that overruns has no kind, and the fault tells the number of digits. -/
theorem callKind_of_callOverruns (statics : earlier.map (staticKind? catalog) = kinds.map some)
    (h : CallOverruns catalog earlier command digits) :
    callKind catalog kinds command = .error (.tooManyDigits digits) := by
  cases h with
  | operand args known named arity first long =>
    have found := Catalog.find?_eq_some_iff.mpr ⟨known, named⟩
    simp only [Nat.add_comm _ 1] at first
    rw [callKind_of_operands args found arity.symm]
    exact bind_eq_error_iff.mpr
      (.inl (checkOperands_of_firstAt statics first (checkOperand_of_overlong long)))

end Call

/-! ## The whole list -/

section Commands

variable {catalog : Catalog} {commands : List Command} {fault : Fault} {digits : Nat}

/-- A list that is refused overruns, or it is refused with a diagnostic. -/
theorem check_error_cases (refused : check catalog commands = .error fault) :
    (∃ digits, Overruns catalog commands digits ∧ fault = .tooManyDigits digits) ∨
      ∃ d : Diagnostic, fault = .diagnostic d ∧ .invalid ∈ d.cause.category.ancestors := by
  obtain ⟨rule, kept, refused⟩ := exists_broken_of_check refused
  by_cases calls : rule = .calls
  · subst calls
    obtain ⟨i, command, kinds, first, statics, -, hcall⟩ :=
      exists_firstAt_of_checkCalls (kept .knownRoles (by decide)) refused
    rcases callKind_error_cases statics hcall with ⟨digits, overruns, rfl⟩ | ⟨cause, rfl, invalid⟩
    · exact .inl ⟨digits, .call kept first overruns, rfl⟩
    · exact .inr ⟨_, rfl, invalid⟩
  · obtain ⟨d, rfl, breaks⟩ := reports_of_check_error_of_ne calls kept refused
    exact .inr ⟨d, rfl, breaks.invalid⟩

/-- Where the first call that does not pass overruns, the check of calls ends with that fault. -/
theorem checkCalls_of_callOverruns {command : Command} {i : Nat}
    (known : ∀ command ∈ commands, command.role? ≠ none)
    (first : FirstAt (fun j other => other.role? = some .call ∧
      ¬ CallPasses catalog (commands.take j) other) commands i command)
    (overruns : CallOverruns catalog (commands.take i) command digits) :
    checkCalls catalog commands = .error (.tooManyDigits digits) := by
  cases checked : checkCalls catalog commands with
  | ok _ =>
    obtain ⟨kinds, found, -⟩ := bind_eq_ok_iff.mp checked
    obtain ⟨statics, fits⟩ := commandKinds_eq_ok_iff.mp found
    have statics' : (commands.take i).map (staticKind? catalog) = (kinds.take i).map some := by
      rw [List.map_take, statics, List.map_take]
    have passes := fits i command first.found first.holds.1
    exact absurd ((callFits_iff_callPasses statics').mp passes) first.holds.2
  | error fault =>
    obtain ⟨j, other, kinds, first', statics, -, hcall⟩ :=
      exists_firstAt_of_checkCalls known checked
    obtain ⟨rfl, rfl⟩ := first'.unique first
    rw [callKind_of_callOverruns statics overruns] at hcall
    rw [Except.error.inj hcall]

/-- A list that overruns is refused with a fault that is no diagnostic. -/
theorem check_of_overruns (h : Overruns catalog commands digits) :
    check catalog commands = .error (.tooManyDigits digits) := by
  cases h with
  | @call command i digits kept first overruns =>
    have stops := checkCalls_of_callOverruns (kept .knownRoles (by decide)) first overruns
    have passes := check_of_keeps kept
    cases checked : check catalog commands with
    | ok _ =>
      have all : checkCalls catalog commands = .ok () :=
        checkRules_eq_ok_iff.mp checked .calls (Rule.mem_all _)
      cases stops.symm.trans all
    | error fault =>
      obtain ⟨rule, -, refused⟩ := exists_broken_of_checkRules checked
      by_cases before : rule ∈ Rule.calls.earlier
      · cases (passes rule before).symm.trans refused
      · obtain rfl : rule = .calls := by
          cases rule <;> first | rfl | exact absurd (by decide) before
        exact refused.symm.trans stops

end Commands

end RelCalc.Validation
