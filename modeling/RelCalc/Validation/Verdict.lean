/-
  `Validation.Verdict`: all rules together.

  The rules are checked in order and the first one that is broken ends the check.
  A command list that keeps all of them is a well-formed program.
-/
import RelCalc.Validation.Rule

set_option autoImplicit false

namespace RelCalc.Validation

/-- Check some rules in order, up to the first that is broken. -/
def checkRules (catalog : Catalog) (commands : List Command) : List Rule → Except Fault Unit
  | [] => .ok ()
  | rule :: rest => do
      rule.check catalog commands
      checkRules catalog commands rest

/-- Check all rules. -/
def check (catalog : Catalog) (commands : List Command) : Except Fault Unit :=
  checkRules catalog commands Rule.all

/-- The rules that are looked at: those that are kept, and the first that is broken. -/
def consulted (catalog : Catalog) (commands : List Command) : List Rule → List Rule
  | [] => []
  | rule :: rest =>
      match rule.check catalog commands with
      | .ok () => rule :: consulted catalog commands rest
      | .error _ => [rule]

/-- The first violation, if there is one.  A fault that is no diagnostic stays a fault. -/
def validate (catalog : Catalog) (commands : List Command) : Except Fault (Option Diagnostic) :=
  match check catalog commands with
  | .ok () => .ok none
  | .error (.diagnostic d) => .ok (some d)
  | .error fault => .error fault

/-- All rules are kept exactly when each of them is. -/
theorem checkRules_eq_ok_iff {catalog : Catalog} {commands : List Command} {rules : List Rule} :
    checkRules catalog commands rules = .ok () ↔
      ∀ rule ∈ rules, rule.check catalog commands = .ok () := by
  induction rules with
  | nil => simp [checkRules]
  | cons rule rest ih =>
    simp only [checkRules, List.forall_mem_cons]
    cases h : rule.check catalog commands with
    | error fault => simp [bind, Except.bind]
    | ok _ => simpa [bind, Except.bind] using ih

/-- A check passes exactly when validation finds nothing. -/
theorem validate_eq_none_iff {catalog : Catalog} {commands : List Command} :
    validate catalog commands = .ok none ↔ check catalog commands = .ok () := by
  unfold validate
  split <;> simp_all

end RelCalc.Validation
