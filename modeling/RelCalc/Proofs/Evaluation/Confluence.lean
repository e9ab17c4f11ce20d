/-
  `Proofs.Evaluation.Confluence`: the order of evaluation does not matter.

  The calls of a loaded program can be tried in any order, also before the lines they
  refer to have values, and readings can come in between.  What carries the argument is
  that a value never changes: at every moment each slot is as it was at the start or
  holds its final result.  So a call that can be evaluated at all reads final values and
  gets its own, and one that cannot lacks the value of an operand.  What has not been
  evaluated when the program is run is evaluated then.
-/
import RelCalc.Proofs.Evaluation.Lines
import RelCalc.Proofs.Evaluation.Session

set_option autoImplicit false

namespace RelCalc.Program

open Outcome Validation

/-! ## More values -/

/-- Every value that a program has, another has too. -/
def KnownTo (p q : Program) : Prop :=
  ∀ (index : Int) (line : Option Int) (value : Value),
    p.valueAt index line = .ok value → q.valueAt index line = .ok value

section KnownTo

variable {p q : Program} {op : Operation} {call : Call} {catalog : Catalog}

theorem KnownTo.resolveOperand (known : KnownTo p q) {operand : Int} {expected : Kind}
    {value : Value} (resolved : p.resolveOperand op call operand expected = .ok value) :
    q.resolveOperand op call operand expected = .ok value := by
  obtain ⟨before, found, kind⟩ := resolveOperand_eq_ok_iff_valueAt.mp resolved
  exact resolveOperand_eq_ok_iff_valueAt.mpr ⟨before, known operand call.line value found, kind⟩

theorem KnownTo.resolveAll (known : KnownTo p q) {pairs : List (Int × Kind)} {values : List Value}
    (resolved : p.resolveAll op call pairs = .ok values) :
    q.resolveAll op call pairs = .ok values := by
  induction pairs generalizing values with
  | nil => exact resolved
  | cons pair rest ih =>
    obtain ⟨value, first, resolved⟩ := bind_eq_ok_iff.mp resolved
    obtain ⟨later, others, whole⟩ := bind_eq_ok_iff.mp resolved
    exact bind_eq_ok_iff.mpr ⟨value, known.resolveOperand first,
      bind_eq_ok_iff.mpr ⟨later, ih others, whole⟩⟩

theorem KnownTo.resolve (known : KnownTo p q) {values : List Value}
    (resolved : p.resolve op call = .ok values) : q.resolve op call = .ok values := by
  obtain ⟨count, all⟩ := resolve_eq_ok_iff_resolveAll.mp resolved
  exact resolve_eq_ok_iff_resolveAll.mpr ⟨count, known.resolveAll all⟩

/-- With fewer values a call gets the same value, or an operand lacks one. -/
theorem KnownTo.compute (known : KnownTo p q) (ground : p.ground = q.ground)
    (spelled : ∀ operand ∈ call.operands, Text.isSpelled operand = true) {value : Value}
    (computed : q.compute catalog call = .ok value) :
    p.compute catalog call = .ok value ∨
      ∃ fault, p.compute catalog call = .error fault ∧ IsUnresolved fault := by
  cases found : catalog.find? call.name with
  | none =>
    rw [compute_of_unknown found] at computed
    cases computed
  | some op =>
    rw [compute_of_found found] at computed ⊢
    obtain ⟨operands, resolved, applied⟩ := bind_eq_ok_iff.mp computed
    cases attempt : p.resolve op call with
    | ok others =>
      obtain rfl : others = operands := Except.ok.inj ((known.resolve attempt).symm.trans resolved)
      rw [ground]
      exact .inl applied
    | error fault =>
      refine .inr ⟨fault, rfl, ?_⟩
      -- The number of operands is right, so it is one of them that cannot be resolved.
      obtain ⟨count, -⟩ := resolve_eq_ok_iff_resolveAll.mp resolved
      rw [resolve_of_count count] at attempt
      exact resolveAll_error (spelled_zip _ spelled) attempt

end KnownTo

/-! ## Partly evaluated programs -/

/-- Some calls have been settled, whichever: each slot is as it was at the start, or has got its
value. -/
structure Partly (slots : List Slot) (values : List Value) (p : Program) : Prop where
  length_eq : p.slots.length = slots.length
  line : ∀ (i : Nat) (slot : Slot) (value : Value), slots[i]? = some slot →
    values[i]? = some value → p.slots[i]? = some slot ∨ p.slots[i]? = some (slot.settle value)

section Partly

variable {slots : List Slot} {values : List Value} {p : Program} {i : Nat} {slot held : Slot}
  {value : Value}

theorem Partly.start (slots : List Slot) (values : List Value) : Partly slots values ⟨slots⟩ :=
  ⟨rfl, fun _ _ _ found _ => .inl found⟩

/-- One more line gets its value. -/
theorem Partly.set (partly : Partly slots values p) (found : slots[i]? = some slot)
    (hvalue : values[i]? = some value) :
    Partly slots values ⟨p.slots.set i (slot.settle value)⟩ := by
  refine ⟨by rw [List.length_set, partly.length_eq], fun j other value' found' hvalue' => ?_⟩
  by_cases same : i = j
  · subst same
    obtain rfl : slot = other := Option.some.inj (found.symm.trans found')
    obtain rfl : value = value' := Option.some.inj (hvalue.symm.trans hvalue')
    have bound : i < p.slots.length := by
      rw [partly.length_eq]
      exact (List.getElem?_eq_some_iff.mp found).1
    exact .inr (List.getElem?_set_self bound)
  · rw [List.getElem?_set_ne same]
    exact partly.line j other value' found' hvalue'

/-- A slot that holds no call has its value. -/
theorem Partly.eq_settle (partly : Partly slots values p) (found : slots[i]? = some slot)
    (hvalue : values[i]? = some value) (hheld : p.slots[i]? = some held)
    (settled : held.content.isCall = false) : held = slot.settle value := by
  rcases partly.line i slot value found hvalue with same | same
  · obtain rfl : held = slot := Option.some.inj (hheld.symm.trans same)
    exact (settle_of_value settled).symm
  · exact Option.some.inj (hheld.symm.trans same)

end Partly

/-! ## Lines in any order -/

namespace Accepted

variable {catalog : Catalog} {commands : List Command} {slots : List Slot} {kinds : List Kind}
  {values : List Value} {p : Program} {i : Nat} {held : Slot}

/-- Lines of a partly evaluated program that hold no call have their final values. -/
theorem value_of_partly (h : Accepted catalog commands slots kinds values)
    (partly : Partly slots values p) (hheld : p.slots[i]? = some held)
    (settled : held.content.isCall = false) :
    ∃ value, values[i]? = some value ∧ held.value? = some value ∧
      (settleAll slots values)[i]? = some held := by
  have bound := (List.getElem?_eq_some_iff.mp hheld).1
  rw [partly.length_eq] at bound
  have found : slots[i]? = some slots[i] := List.getElem?_eq_getElem bound
  obtain ⟨value, hvalue⟩ := h.exists_values found
  obtain rfl := partly.eq_settle found hvalue hheld settled
  exact ⟨value, hvalue, h.value_settle found hvalue, getElem?_settleAll found hvalue⟩

theorem knownTo_of_partly (h : Accepted catalog commands slots kinds values)
    (partly : Partly slots values p) : KnownTo p ⟨settleAll slots values⟩ := by
  intro index line value found
  obtain ⟨i, held, rfl, hheld, hvalue⟩ := valueAt_eq_ok_iff.mp found
  obtain ⟨-, -, -, final⟩ := h.value_of_partly partly hheld (Slot.isCall_of_value? hvalue)
  exact valueAt_eq_ok_iff.mpr ⟨i, held, rfl, final, hvalue⟩

/-- The first line is not a call, so evaluation leaves it alone. -/
theorem ground_of_partly (h : Accepted catalog commands slots kinds values)
    (partly : Partly slots values p) : p.ground = ground ⟨settleAll slots values⟩ := by
  obtain ⟨declaration, rest, rfl, role, -⟩ := h.exists_ground
  obtain ⟨slot, found, made⟩ := exists_slot_of_slotsOf h.slots_eq List.getElem?_cons_zero
  obtain ⟨value, hvalue⟩ := h.exists_values found
  obtain ⟨content, hcontent, rfl⟩ := slot_eq_ok_iff.mp made
  rw [content_of_ground role] at hcontent
  cases hcontent
  have first : p.slots[0]? =
      some ⟨1, declaration.line, .ground (FinSet.ofList declaration.args)⟩ := by
    rcases partly.line 0 _ value found hvalue with same | same
    · exact same
    · exact same
  have final := getElem?_settleAll found hvalue
  exact (ground_of_first first).trans (ground_of_first (p := ⟨settleAll slots values⟩) final).symm

/-- Where no line before another is a call, these lines have their final values. -/
theorem holds_of_partly (h : Accepted catalog commands slots kinds values)
    (partly : Partly slots values p) (inside : i ≤ p.slots.length)
    (before : ∀ (j : Nat) (held : Slot), j < i → p.slots[j]? = some held →
      held.content.isCall = false) : p.Holds (values.take i) := by
  refine List.prefix_iff_getElem?.mpr fun j bound => ?_
  simp only [List.length_map, List.length_take] at bound
  have within : j < p.slots.length := by omega
  have hheld : p.slots[j]? = some p.slots[j] := List.getElem?_eq_getElem within
  obtain ⟨value, hvalue, same, -⟩ :=
    h.value_of_partly partly hheld (before j _ (by omega) hheld)
  have here : values[j] = value := by
    rw [List.getElem?_eq_getElem (by omega)] at hvalue
    exact Option.some.inj hvalue
  rw [List.getElem?_map, hheld, Option.map_some, same]
  simp [here]

/-- Each slot has the number of its line as its index. -/
theorem indexed_of_partly (h : Accepted catalog commands slots kinds values)
    (partly : Partly slots values p) : p.Indexed := by
  intro i held hheld
  have bound := (List.getElem?_eq_some_iff.mp hheld).1
  rw [partly.length_eq] at bound
  have found : slots[i]? = some slots[i] := List.getElem?_eq_getElem bound
  obtain ⟨value, hvalue⟩ := h.exists_values found
  have index := indexed_ofCommands h.ofCommands_eq i slots[i] found
  rcases partly.line i slots[i] value found hvalue with same | same
  · cases same.symm.trans hheld
    exact index
  · cases same.symm.trans hheld
    rw [settle_index]
    exact index

/-- A call of a partly evaluated program is as it was at the start. -/
theorem call_of_partly (h : Accepted catalog commands slots kinds values)
    (partly : Partly slots values p) {line : Nat} (called : line ∈ p.calls) :
    ∃ i sourceLine name operands value, line = i + 1 ∧
      p.slots[i]? = some ⟨i + 1, sourceLine, .call name operands⟩ ∧
        slots[i]? = some ⟨i + 1, sourceLine, .call name operands⟩ ∧ values[i]? = some value := by
  have indexed := h.indexed_of_partly partly
  obtain ⟨i, held, rfl, hheld, holdsCall⟩ := (mem_calls_iff indexed).mp called
  have bound := (List.getElem?_eq_some_iff.mp hheld).1
  rw [partly.length_eq] at bound
  obtain ⟨start, found⟩ : ∃ start, slots[i]? = some start := ⟨_, List.getElem?_eq_getElem bound⟩
  obtain ⟨value, hvalue⟩ := h.exists_values found
  rcases partly.line i start value found hvalue with same | same
  · obtain rfl := Option.some.inj (same.symm.trans hheld)
    obtain ⟨index, sourceLine, content⟩ := start
    obtain rfl : index = i + 1 := indexed i _ hheld
    cases content with
    | call name operands => exact ⟨i, sourceLine, name, operands, value, rfl, same, found, hvalue⟩
    | ground | set | relation | result => cases holdsCall
  · obtain rfl := Option.some.inj (same.symm.trans hheld)
    have missing := (Content.value?_eq_none_iff _).mpr holdsCall
    rw [← Slot.value?, h.value_settle found hvalue] at missing
    cases missing

/-- Evaluating a call of a partly evaluated program gives the result it has in the end, or fails for
want of an operand. -/
theorem evaluate_of_partly (h : Accepted catalog commands slots kinds values)
    (wellTyped : catalog.WellTyped) (partly : Partly slots values p) {line : Nat}
    (called : line ∈ p.calls) :
    (∃ fault, p.evaluate catalog line = .error ⟨p, fault⟩ ∧ IsUnresolved fault) ∨
      ∃ i sourceLine name operands value, line = i + 1 ∧
        slots[i]? = some ⟨i + 1, sourceLine, .call name operands⟩ ∧ values[i]? = some value ∧
          p.evaluate catalog line =
            .ok ⟨p.slots.set i ⟨i + 1, sourceLine, .result name value⟩⟩ := by
  obtain ⟨i, sourceLine, name, operands, value, rfl, hheld, found, hvalue⟩ :=
    h.call_of_partly partly called
  have final : compute ⟨settleAll slots values⟩ catalog ⟨name, operands, sourceLine, i + 1⟩ =
      .ok value := by
    refine h.compute_eq wellTyped found hvalue ?_
    obtain ⟨rest, whole⟩ := h.holds
    refine ⟨(values.drop i).map some ++ rest, ?_⟩
    rw [← whole, ← List.append_assoc, ← List.map_append, List.take_append_drop]
  have spelled := h.spelled_operands found
  rcases (h.knownTo_of_partly partly).compute (h.ground_of_partly partly) spelled final with
    computed | ⟨fault, failed, unresolved⟩
  · exact .inr ⟨i, sourceLine, name, operands, value, rfl, found, hvalue,
      evaluate_of_compute hheld spelled computed (h.spelled_value hvalue)⟩
  · exact .inl ⟨fault, evaluate_of_compute_error hheld failed, unresolved⟩

/-- The first call that is left can be evaluated. -/
theorem evaluate_first_of_partly (h : Accepted catalog commands slots kinds values)
    (wellTyped : catalog.WellTyped) (partly : Partly slots values p) {line : Nat} {rest : List Nat}
    (calls : p.calls = line :: rest) :
    ∃ next, p.evaluate catalog line = .ok next ∧ Partly slots values next ∧ next.calls = rest := by
  have called : line ∈ p.calls := calls ▸ List.mem_cons_self
  have indexed := h.indexed_of_partly partly
  have ordered := indexed.pairwise_calls
  rw [calls, List.pairwise_cons] at ordered
  obtain ⟨i, sourceLine, name, operands, value, rfl, hheld, found, hvalue⟩ :=
    h.call_of_partly partly called
  have holds : p.Holds (values.take i) := by
    refine h.holds_of_partly partly (Nat.le_of_lt (List.getElem?_eq_some_iff.mp hheld).1) ?_
    intro j held earlier hheld'
    by_contra holdsCall
    have later : j + 1 ∈ p.calls :=
      (mem_calls_iff indexed).mpr ⟨j, held, rfl, hheld', by simpa using holdsCall⟩
    rw [calls, List.mem_cons] at later
    rcases later with same | member
    · omega
    · have after := ordered.1 _ member
      omega
  have evaluated : p.evaluate catalog (i + 1 : Nat) =
      .ok ⟨p.slots.set i ⟨i + 1, sourceLine, .result name value⟩⟩ :=
    evaluate_of_compute hheld (h.spelled_operands found)
      (h.compute_eq wellTyped found hvalue holds) (h.spelled_value hvalue)
  have partly' : Partly slots values ⟨p.slots.set i ⟨i + 1, sourceLine, .result name value⟩⟩ :=
    partly.set found hvalue
  have indexed' := h.indexed_of_partly partly'
  refine ⟨_, evaluated, partly', ?_⟩
  refine eq_of_same_lines indexed'.pairwise_calls ordered.2 fun other => ?_
  rw [mem_calls_of_evaluate indexed indexed' evaluated, calls, List.mem_cons]
  constructor
  · rintro ⟨same | member, different⟩
    · exact absurd same different
    · exact member
  · intro member
    have after := ordered.1 other member
    exact ⟨.inr member, by omega⟩

/-- Without calls a partly evaluated program is the settled one. -/
theorem eq_settled_of_partly (h : Accepted catalog commands slots kinds values)
    (partly : Partly slots values p) (calls : p.calls = []) : p = ⟨settleAll slots values⟩ := by
  have length := length_settleAll h.settles.length_eq
  have same : p.slots = settleAll slots values := by
    refine List.ext_getElem? fun i => ?_
    cases hheld : p.slots[i]? with
    | none =>
      rw [List.getElem?_eq_none_iff, partly.length_eq, ← length] at hheld
      exact (List.getElem?_eq_none hheld).symm
    | some held =>
      have settled : held.content.isCall = false := by
        by_contra holdsCall
        have called : i + 1 ∈ p.calls :=
          (mem_calls_iff (h.indexed_of_partly partly)).mpr
            ⟨i, held, rfl, hheld, by simpa using holdsCall⟩
        rw [calls] at called
        cases called
      obtain ⟨-, -, -, final⟩ := h.value_of_partly partly hheld settled
      exact final.symm
  rw [← same]

/-- Running a partly evaluated program settles what is left. -/
theorem run_of_partly (h : Accepted catalog commands slots kinds values)
    (wellTyped : catalog.WellTyped) (partly : Partly slots values p) :
    p.run catalog = (⟨settleAll slots values⟩, none) := by
  unfold run
  generalize left : p.calls = lines
  induction lines generalizing p with
  | nil =>
    rw [← h.eq_settled_of_partly partly left]
    rfl
  | cons line rest ih =>
    obtain ⟨next, evaluated, partly', left'⟩ := h.evaluate_first_of_partly wellTyped partly left
    rw [runLines_cons_of_ok evaluated]
    exact ih partly' left'

end Accepted

/-! ## Steps in any order -/

/-- A step that overwrites nothing. -/
def Step.readsOnly : Step → Bool
  | .replace .. | .evaluate .. | .setOperands .. | .run => false
  | _ => true

theorem step_of_readsOnly {request : Step} (reads : request.readsOnly = true) (p : Program)
    (catalog : Catalog) : (p.step catalog request).1 = p := by
  cases request <;> first | rfl | cases reads

end RelCalc.Program

namespace RelCalc.Session

open Outcome Validation Program

/-- A step that may be taken at any moment: a reading, or the evaluation of a line that holds a call
at that moment. -/
inductive Allows (s : Session) : Step → Prop where
  | evaluate {line : Nat} (called : line ∈ s.program.calls) : Allows s (.evaluate line)
  | read {request : Step} (reads : request.readsOnly = true) : Allows s request

/-- A session is reached from another by steps of these sorts, whether they succeed or fail. -/
inductive Reaches (catalog : Catalog) (s : Session) : Session → Prop where
  | refl : Reaches catalog s s
  | step {t : Session} {request : Step} (earlier : Reaches catalog s t)
      (allowed : t.Allows request) : Reaches catalog s (t.step catalog request).1

section Reaches

variable {commands : List Command} {slots : List Slot} {kinds : List Kind} {values : List Value}
  {catalog : Catalog} {s t : Session}

/-- One step keeps a session coherent and its program partly evaluated. -/
theorem partly_step (h : Accepted catalog commands slots kinds values)
    (wellTyped : catalog.WellTyped) (coherent : s.Coherent) (partly : Partly slots values s.program)
    {request : Step} (allowed : s.Allows request) :
    (s.step catalog request).1.Coherent ∧
      Partly slots values (s.step catalog request).1.program := by
  obtain ⟨program, -, coherent'⟩ := s.step_eq catalog coherent request
  refine ⟨coherent', ?_⟩
  rw [program]
  cases allowed with
  | read reads =>
    rw [step_of_readsOnly reads]
    exact partly
  | evaluate called =>
    rcases h.evaluate_of_partly wellTyped partly called with
      ⟨fault, failed, -⟩ | ⟨i, sourceLine, name, operands, value, rfl, found, hvalue, evaluated⟩
    · rw [Program.step, failed]
      exact partly
    · rw [Program.step, evaluated]
      exact partly.set found hvalue

/-- So does any sequence of steps. -/
theorem partly_of_reaches (h : Accepted catalog commands slots kinds values)
    (wellTyped : catalog.WellTyped) (reached : Reaches catalog (fresh ⟨slots⟩) s) :
    s.Coherent ∧ Partly slots values s.program := by
  induction reached with
  | refl =>
    exact ⟨coherent_fresh (indexed_ofCommands h.ofCommands_eq), .start slots values⟩
  | step _ allowed ih => exact partly_step h wellTyped ih.1 ih.2 allowed

/-- A run ends in the settled slots. -/
theorem run_step_of_partly (h : Accepted catalog commands slots kinds values)
    (wellTyped : catalog.WellTyped) (coherent : s.Coherent)
    (partly : Partly slots values s.program) :
    ∃ t, s.step catalog .run = (t, .ok (.count slots.length)) ∧
      t.program = ⟨settleAll slots values⟩ := by
  obtain ⟨program, answer, -⟩ := s.step_eq catalog coherent .run
  simp only [Program.step, h.run_of_partly wellTyped partly] at program answer
  refine ⟨_, Prod.ext rfl (answer.trans ?_), program⟩
  rw [Program.read, Program.size, length_settleAll h.settles.length_eq]

/-- An evaluation writes the settled slot, or fails for want of an operand. -/
theorem evaluate_step_of_partly (h : Accepted catalog commands slots kinds values)
    (wellTyped : catalog.WellTyped) (coherent : s.Coherent)
    (partly : Partly slots values s.program) {line : Nat} (called : line ∈ s.program.calls) :
    (∃ t fault, s.step catalog (.evaluate line) = (t, .error fault) ∧
      IsUnresolved fault ∧ t.program = s.program) ∨
    (∃ t sourceLine name value,
      s.step catalog (.evaluate line) =
          (t, .ok (.slot ⟨line, sourceLine, .result name value⟩)) ∧
        slot? ⟨settleAll slots values⟩ line = some ⟨line, sourceLine, .result name value⟩ ∧
        t.program.slots =
          s.program.slots.set (line - 1) ⟨line, sourceLine, .result name value⟩) := by
  obtain ⟨program, answer, -⟩ := s.step_eq catalog coherent (.evaluate line)
  rcases h.evaluate_of_partly wellTyped partly called with
    ⟨fault, failed, unresolved⟩ |
      ⟨i, sourceLine, name, operands, value, rfl, found, hvalue, evaluated⟩
  · simp only [Program.step, failed, Program.change] at program answer
    exact .inl ⟨_, fault, Prod.ext rfl answer, unresolved, program⟩
  · simp only [Program.step, evaluated, Program.change] at program answer
    have bound : i < s.program.slots.length := by
      rw [partly.length_eq]
      exact (List.getElem?_eq_some_iff.mp found).1
    have shown : slotAnswer ⟨s.program.slots.set i ⟨i + 1, sourceLine, .result name value⟩⟩
        (i + 1 : Nat) = .ok (.slot ⟨i + 1, sourceLine, .result name value⟩) := by
      rw [slotAnswer, slot_succ (List.getElem?_set_self bound)]
      rfl
    refine .inr ⟨_, sourceLine, name, value, Prod.ext rfl (answer.trans shown), ?_, ?_⟩
    · rw [slot?_succ]
      exact getElem?_settleAll found hvalue
    · rw [program]
      rfl

end Reaches

/-- **Evaluation is confluent.**  Take a loaded program, evaluate lines of it that hold calls in
any order, and read from it in between, whether these steps succeed or fail.  Wherever this leads,
an evaluation that fails does so for want of an operand and overwrites nothing; one that succeeds
writes the result that a run of the fresh program writes into that line; and a run ends without a
fault in the very slots in which the run of the fresh program ends. -/
theorem evaluation_confluent (text : String) (start : Program) (loaded : load text = .ok start) :
    ∃ finished : Session,
      (fresh start).step Catalog.standard .run = (finished, .ok (.count start.size)) ∧
      ∀ s : Session, Reaches Catalog.standard (fresh start) s →
        (∀ line ∈ s.program.calls,
          (∃ t fault, s.step Catalog.standard (.evaluate line) = (t, .error fault) ∧
            IsUnresolved fault ∧ t.program = s.program) ∨
          (∃ t sourceLine name value, s.step Catalog.standard (.evaluate line) =
              (t, .ok (.slot ⟨line, sourceLine, .result name value⟩)) ∧
            finished.program.slot? line = some ⟨line, sourceLine, .result name value⟩ ∧
            t.program.slots =
              s.program.slots.set (line - 1) ⟨line, sourceLine, .result name value⟩)) ∧
        ∃ t, s.step Catalog.standard .run = (t, .ok (.count start.size)) ∧
          t.program = finished.program := by
  obtain ⟨commands, slots, kinds, values, rfl, h⟩ := exists_accepted_of_load loaded
  have wellTyped := Catalog.wellTyped_standard
  obtain ⟨finished, runs, settled⟩ :=
    run_step_of_partly h wellTyped (coherent_fresh (indexed_ofCommands h.ofCommands_eq))
      (.start slots values)
  refine ⟨finished, runs, fun s reached => ?_⟩
  obtain ⟨coherent, partly⟩ := partly_of_reaches h wellTyped reached
  rw [settled]
  exact ⟨fun line called => evaluate_step_of_partly h wellTyped coherent partly called,
    run_step_of_partly h wellTyped coherent partly⟩

/-- A program text whose last line needs the line before it. -/
def chainText : String := "U a b\nR a b\nC domain 2\nC card 3\n"

/-- The program of this text. -/
def chainProgram : Program :=
  ⟨[⟨1, some 1, .ground (FinSet.ofList ["a", "b"])⟩,
    ⟨2, some 2, .relation (FinSet.ofList [("a", "b")])⟩, ⟨3, some 3, .call "domain" [2]⟩,
    ⟨4, some 4, .call "card" [3]⟩]⟩

/-- The last line is tried too early and asked for its value; the run ends as if it had not been. -/
theorem evaluation_confluent_chainText :
    load chainText = .ok chainProgram ∧ ∃ finished t : Session,
      (fresh chainProgram).step Catalog.standard .run = (finished, .ok (.count 4)) ∧
      (((fresh chainProgram).step Catalog.standard (.evaluate 4)).1.step Catalog.standard
        (.valueAt 4 none)).1.step Catalog.standard .run = (t, .ok (.count 4)) ∧
      t.program = finished.program := by
  have loaded : load chainText = .ok chainProgram := by decide +kernel
  obtain ⟨finished, runs, confluent⟩ := evaluation_confluent chainText chainProgram loaded
  have tried : (fresh chainProgram).Allows (.evaluate (4 : Nat)) := .evaluate (by decide +kernel)
  have asked (s : Session) : s.Allows (.valueAt 4 none) := .read rfl
  obtain ⟨-, t, ends, same⟩ := confluent _ (.step (.step .refl tried) (asked _))
  exact ⟨loaded, finished, t, runs, ends, same⟩

end RelCalc.Session
