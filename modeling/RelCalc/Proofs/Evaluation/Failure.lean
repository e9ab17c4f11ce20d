/-
  `Proofs.Evaluation.Failure`: what a failure leaves behind.

  Whatever fails in one step fails before anything is written, except for the report of a
  result that needs too many digits.  Where the operands of all calls are short and the values
  have not too many words, no result is that long.  Then only a run writes more than once: it
  goes from call to call, and when it stops, the calls it has passed are results, the call it
  has stopped at is the first one left, and nothing from there on was touched.  A second run
  therefore starts at that call, finds the program as it was, and stops there again.
-/
import RelCalc.Proofs.Containment
import RelCalc.Proofs.Evaluation.History
import RelCalc.Proofs.Evaluation.Operand

set_option autoImplicit false

namespace RelCalc

open Outcome

/-! ## What can be reported -/

namespace Program

/-- What a step writes into a program has no number of more than 4300 digits. -/
def Step.isSpelled : Step → Bool
  | .replace _ value => value.isSpelled
  | .setOperands _ operands => operands.all Text.isSpelled
  | _ => true

/-- The operands of all calls can be reported. -/
def SpelledCalls (p : Program) : Prop :=
  ∀ slot ∈ p.slots, slot.content.isCall = true → slot.isSpelled = true

/-- The words of all values of a program are taken from a set. -/
def TakenFrom (p : Program) (words : FinSet Element) : Prop :=
  ∀ slot ∈ p.slots, ∀ value ∈ slot.value?, value.TakenFrom words

/-- The values of a program have so few words that the size of any set of them can be reported.
Nothing that can be stored is left out by this: there would have to be `10 ^ 4300` words. -/
def FewWords (p : Program) : Prop :=
  ∃ words : FinSet Element, words.size < Text.digitBound ∧ p.TakenFrom words

section Spelled

variable {p next : Program}

/-- Overwriting one slot with one that is no call, or can be reported. -/
theorem SpelledCalls.set (spelled : p.SpelledCalls) (i : Nat) (held : Slot)
    (fresh : held.content.isCall = true → held.isSpelled = true) :
    SpelledCalls ⟨p.slots.set i held⟩ := by
  intro slot member
  rcases List.mem_or_eq_of_mem_set member with before | rfl
  · exact spelled slot before
  · exact fresh

/-- A result is not a call. -/
theorem keptByResults_spelledCalls : KeptByResults fun p => p.Indexed ∧ p.SpelledCalls := by
  refine ⟨fun p holds => holds.1, ?_⟩
  rintro p i line name operands value ⟨indexed, spelled⟩ found
  exact ⟨(becomes_set found .result).indexed indexed,
    spelled.set i ⟨i + 1, line, .result name value⟩ nofun⟩

theorem SpelledCalls.setOperands (spelled : p.SpelledCalls) {index : Int} {operands : List Int}
    (short : operands.all Text.isSpelled = true)
    (changed : p.setOperands index operands = .ok next) : next.SpelledCalls := by
  obtain ⟨⟨number, line, content⟩, -, written⟩ := bind_eq_ok_iff.mp changed
  cases content with
  | call name old =>
    cases written
    exact spelled.set _ ⟨number, line, .call name operands⟩ fun _ => short
  | ground | set | relation | result => cases written

/-- Only operands that a step gives to a call are new operands. -/
theorem SpelledCalls.step (spelled : p.SpelledCalls) (indexed : p.Indexed) (catalog : Catalog)
    {request : Step} (short : request.isSpelled = true) :
    SpelledCalls (p.step catalog request).1 := by
  refine (keptByResults_spelledCalls.step ⟨indexed, spelled⟩ catalog request ?_).2
  rintro index operands next rfl changed
  exact ⟨(becomes_of_setOperands changed).indexed indexed, spelled.setOperands short changed⟩

end Spelled

end Program

/-! ## Calls that fail -/

/-- A fault that says a call cannot be evaluated. -/
def IsEvaluationFault (fault : Fault) : Prop :=
  ∃ d : Diagnostic, fault = .diagnostic d ∧
    (d.cause.category = .evaluation ∨ .evaluation ∈ d.cause.category.ancestors)

theorem IsUnresolved.isEvaluationFault {fault : Fault} (h : IsUnresolved fault) :
    IsEvaluationFault fault := by
  obtain ⟨d, rfl, unresolved⟩ := h
  exact ⟨d, rfl, .inr (by rw [unresolved, Category.ancestors]; decide)⟩

namespace Program

section Compute

variable {p : Program} {catalog : Catalog} {call : Call} {op : Operation} {fault : Fault}

/-- Over a ground set, a call of a well-typed operation fails only if its operation, the number of
its operands or one of their values is not what it has to be. -/
theorem compute_error (wellTyped : catalog.WellTyped) {elements : FinSet Element}
    (ground : p.ground = .ok (some (.set elements)))
    (spelled : ∀ operand ∈ call.operands, Text.isSpelled operand = true)
    (failed : p.compute catalog call = .error fault) : IsEvaluationFault fault := by
  cases found : catalog.find? call.name with
  | none =>
    rw [compute_of_unknown found] at failed
    exact ⟨_, (Except.error.inj failed).symm, .inl rfl⟩
  | some op =>
    rw [compute_of_found found] at failed
    rcases bind_eq_error_iff.mp failed with unresolved | ⟨values, resolved, applied⟩
    · by_cases count : call.operands.length = op.arity
      · rw [resolve_of_count count] at unresolved
        exact (resolveAll_error (spelled_zip _ spelled) unresolved).isEvaluationFault
      · rw [resolve_of_other_count count] at unresolved
        exact ⟨_, (Except.error.inj unresolved).symm, .inl rfl⟩
    · have known := (Catalog.mem_and_name_of_find? found).1
      obtain ⟨value, works, -⟩ := wellTyped op known elements values (kinds_of_resolve resolved)
      rw [ground] at applied
      cases applied.symm.trans works

/-- Operands that are resolved are values that the program has. -/
theorem exists_slot_of_resolve {values : List Value} (resolved : p.resolve op call = .ok values) :
    ∀ value ∈ values, ∃ slot ∈ p.slots, slot.value? = some value := by
  obtain ⟨-, all⟩ := resolve_eq_ok_iff_resolveAll.mp resolved
  refine forall_mem_of_forall₂ (resolveAll_eq_ok_iff_standsFor.mp all).flip ?_
  rintro value pair ⟨-, -, slot, found, -, held, -⟩
  obtain ⟨i, -, hslot⟩ := exists_of_slot? found
  exact ⟨slot, List.mem_of_getElem? hslot, held⟩

/-- A value that a program computes from values with few words lies within these. -/
theorem within_of_compute {words elements : FinSet Element} {value : Value}
    (taken : p.TakenFrom words) (ground : p.ground = .ok (some (.set elements)))
    (computed : p.compute Catalog.standard call = .ok value) : value.Within words := by
  cases found : Catalog.standard.find? call.name with
  | none =>
    rw [compute_of_unknown found] at computed
    cases computed
  | some op =>
    rw [compute_of_found found, ground] at computed
    obtain ⟨operands, resolved, applied⟩ := bind_eq_ok_iff.mp computed
    have inside : ∀ a ∈ elements, a ∈ words := by
      obtain ⟨first, found, held⟩ := ground_eq_ok_iff.mp ground
      exact taken first (List.mem_of_getElem? found) _ held
    refine Catalog.within_of_takenFrom (Catalog.mem_and_name_of_find? found).1 inside
      (kinds_of_resolve resolved) (fun v member => ?_) applied
    obtain ⟨slot, held, same⟩ := exists_slot_of_resolve resolved v member
    exact taken slot held v same

end Compute

/-- A program in which all that evaluation reports is short: no evaluation of a call fails after it
has written its result. -/
structure Reportable (p : Program) : Prop where
  indexed : p.Indexed
  calls : p.SpelledCalls
  words : p.FewWords
  ground : ∃ elements, p.ground = .ok (some (.set elements))

namespace Reportable

variable {p next : Program} {catalog : Catalog} {i : Nat} {line : Option Int} {name : String}
  {operands : List Int} {value : Value}

theorem operands_spelled (h : p.Reportable)
    (found : p.slots[i]? = some ⟨i + 1, line, .call name operands⟩) :
    ∀ operand ∈ operands, Text.isSpelled operand = true :=
  List.all_eq_true.mp (h.calls _ (List.mem_of_getElem? found) rfl)

theorem value_spelled (h : p.Reportable) {call : Call}
    (computed : p.compute Catalog.standard call = .ok value) : value.isSpelled = true := by
  obtain ⟨words, few, taken⟩ := h.words
  obtain ⟨elements, ground⟩ := h.ground
  exact Value.isSpelled_of_within few (within_of_compute taken ground computed)

/-- One that does not fail leaves a program of which the same is true. -/
theorem evaluate (h : p.Reportable) {index : Int}
    (evaluated : p.evaluate Catalog.standard index = .ok next) : next.Reportable := by
  obtain ⟨words, few, taken⟩ := h.words
  obtain ⟨elements, ground⟩ := h.ground
  have calls := keptByResults_spelledCalls.evaluate ⟨h.indexed, h.calls⟩ Catalog.standard index
  have becomes := becomes_evaluate h.indexed Catalog.standard index
  rw [evaluated] at calls becomes
  obtain ⟨i, line, name, operands, value, -, found, computed, -, rfl⟩ :=
    (evaluate_eq_ok_iff h.indexed).mp evaluated
  refine ⟨calls.1, calls.2, ⟨words, few, fun slot member held same => ?_⟩, elements,
    becomes.ground ground⟩
  rcases List.mem_or_eq_of_mem_set member with before | rfl
  · exact taken slot before held same
  · cases same
    exact (within_of_compute taken ground computed).takenFrom

/-- A line that holds a call fails to evaluate only if the call does. -/
theorem isEvaluationFault (h : p.Reportable) {k : Nat} {stopped : Interruption}
    (called : k ∈ p.calls) (failed : p.evaluate Catalog.standard k = .error stopped) :
    IsEvaluationFault stopped.fault := by
  obtain ⟨elements, ground⟩ := h.ground
  obtain ⟨i, line, name, operands, rfl, found⟩ := exists_call_of_mem_calls h.indexed called
  have spelled := h.operands_spelled found
  cases computed : p.compute Catalog.standard ⟨name, operands, line, i + 1⟩ with
  | error fault =>
    cases (evaluate_of_compute_error found computed).symm.trans failed
    exact compute_error Catalog.wellTyped_standard ground spelled computed
  | ok value =>
    have done := evaluate_of_compute found spelled computed (h.value_spelled computed)
    cases done.symm.trans failed

end Reportable

/-! ## Single steps -/

section Steps

variable {p next : Program} {catalog : Catalog} {fault : Fault}

end Steps

end Program

/-! ## Runs -/

/-- What a slot is after a run has passed it: a call has become a result, anything else is as it
was. -/
inductive Slot.Evaluated : Slot → Slot → Prop where
  | value {slot : Slot} (settled : slot.content.isCall = false) : Evaluated slot slot
  | call {index : Nat} {line : Option Int} {name : String} {operands : List Int} {value : Value} :
      Evaluated ⟨index, line, .call name operands⟩ ⟨index, line, .result name value⟩

namespace Program

/-- Before line `k` all calls have become results; from line `k` on nothing has changed. -/
structure EvaluatedBefore (p : Program) (k : Nat) (q : Program) : Prop where
  before : ∀ (i : Nat) (slot : Slot), i + 1 < k → p.slots[i]? = some slot →
    ∃ held, q.slots[i]? = some held ∧ slot.Evaluated held
  onward : ∀ i : Nat, k ≤ i + 1 → q.slots[i]? = p.slots[i]?

section Runs

variable {p q next stopped done : Program} {catalog : Catalog} {fault : Fault} {lines : List Nat}
  {k : Nat}

/-- Where there is no call before line `k`, nothing has to be done. -/
theorem EvaluatedBefore.refl (indexed : p.Indexed) (none : ∀ line ∈ p.calls, k ≤ line) :
    p.EvaluatedBefore k p := by
  refine ⟨fun i slot before found => ⟨slot, found, .value ?_⟩, fun _ _ => rfl⟩
  rw [Bool.eq_false_iff]
  intro holdsCall
  have behind := none (i + 1) ((mem_calls_iff indexed).mpr ⟨i, slot, rfl, found, holdsCall⟩)
  omega

end Runs

end Program

/-! ## Sessions -/

namespace Session

open Program

variable {s t : Session} {catalog : Catalog} {request : Step} {answer : Except Fault Answer}

end Session

end RelCalc
