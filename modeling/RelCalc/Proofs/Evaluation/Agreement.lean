/-
  `Proofs.Evaluation.Agreement`: the check of calls and the run agree.

  The check goes through kinds, the run through values; each has tests of its own,
  in an order of its own.  On a list that keeps the other nine rules they still
  decide alike: if the check passes, the run ends, and if it reports a call, the run
  stops at that very call, for a reason of the same sort, with all earlier calls
  evaluated and nothing else touched.
-/
import RelCalc.Proofs.Evaluation.Soundness

set_option autoImplicit false

namespace RelCalc.Program

open Outcome Validation

/-- Every call has a name, and its operands are non-empty runs of at most 4300 ASCII digits. -/
def NumericCalls (commands : List Command) : Prop :=
  ∀ command ∈ commands, command.role? = some .call → ∃ name tokens, command.args = name :: tokens ∧
    ∀ token ∈ tokens, token.toList ≠ [] ∧ (∀ c ∈ token.toList, c.isDigit = true) ∧
      token.length ≤ 4300

/-- The check reports a call, and a run stops at the same call for a reason of the same sort: the
earlier calls have become results, and the lines from the call on are as they were. -/
structure EndsAt (catalog : Catalog) (commands : List Command) (start : Program) (k : Nat)
    (stopped : Program) (reported given : Diagnostic) : Prop where
  reports : checkCalls catalog commands = .error (.diagnostic reported)
  index : reported.index = some (k : Int)
  stops : start.StopsAt catalog k stopped (.diagnostic given)
  corresponds : Corresponds reported.cause given.cause
  earlier : ∀ (i : Nat) (command : Command), i + 1 < k → commands[i]? = some command →
    command.role? = some .call → ∃ name value, command.args.head? = some name ∧
      stopped.slots[i]? = some ⟨i + 1, command.line, .result name value⟩
  unchanged : ∀ i : Nat, k ≤ i + 1 → stopped.slots[i]? = start.slots[i]?

theorem NumericCalls.readable {commands : List Command} (h : NumericCalls commands) :
    ReadableCalls commands := by
  intro command member role
  obtain ⟨name, tokens, args, digits⟩ := h command member role
  refine ⟨name, tokens, args, fun token inside => ?_⟩
  obtain ⟨nonempty, isDigit, short⟩ := digits token inside
  exact ⟨_, Text.readNatural_eq_ok_iff.mpr ⟨⟨nonempty, isDigit, rfl⟩, short⟩⟩

section Refused

variable {catalog : Catalog} {commands : List Command} {fault : Fault}

/-- A call that the check refuses stops the run where the lines before it are settled. -/
theorem Settles.exists_stops {slots : List Slot} {kinds : List Kind} {values : List Value}
    {command : Command} {slot : Slot} (h : Settles catalog commands slots kinds values)
    (levels : ∀ op ∈ catalog.entries, ∀ kind, op.operands.head? = some kind → kind = op.level)
    (hslot : command.slot (slots.length + 1) = .ok slot) (role : command.role? = some .call)
    {name : String} {tokens : List String} (args : command.args = name :: tokens)
    (numbers : ∀ token ∈ tokens, ∃ n, Text.readNatural token = .ok n)
    (refused : callKind catalog kinds command = .error fault) (after : List Slot) :
    ∃ (reported : Cause) (given : Diagnostic), fault = reportOn command kinds reported ∧
      Corresponds reported given.cause ∧
      StopsAt ⟨slots ++ slot :: after⟩ catalog (slots.length + 1)
        ⟨settleAll slots values ++ slot :: after⟩ (.diagnostic given) := by
  obtain ⟨operands, hoperands, rfl⟩ := (slot_of_call role args).mp hslot
  have read : ReadAs tokens operands := readAs_of_mapM numbers hoperands
  rw [← h.kinds_eq] at refused
  let call : Call := ⟨name, operands, command.line, slots.length + 1⟩
  have place : call.index = values.length + 1 := congrArg (· + 1) h.length_eq
  have fails : ∃ (reported : Cause) (given : Diagnostic),
      fault = reportOn command (values.map Value.kind) reported ∧
        compute ⟨settleAll slots values ++
          ⟨slots.length + 1, command.line, .call name operands⟩ :: after⟩
          catalog call = .error (.diagnostic given) ∧ Corresponds reported given.cause :=
    compute_error_of_callKind_error levels (h.holds_cut _) place args read refused
  obtain ⟨reported, given, hfault, hcompute, corresponds⟩ := fails
  rw [h.kinds_eq] at hfault
  exact ⟨reported, given, hfault, corresponds,
    h.stopsAt_next rfl rfl (evaluate_of_compute_error (h.getElem?_next _ after) hcompute)⟩

/-- Where the check of calls refuses a list that becomes a program, the run stops: the lines before
the call can be run. -/
theorem exists_endsAt {ground : Command} (takes : TakesFrom ground commands)
    (few : (FinSet.ofList ground.args).size < Text.digitBound)
    (known : ∀ command ∈ commands, command.role? ≠ none) (readable : ReadableCalls commands)
    {slots : List Slot} (hslots : slotsOf commands = .ok slots)
    (refused : commandKinds Catalog.standard [] commands = .error fault) :
    ∃ k stopped reported given,
      EndsAt Catalog.standard commands ⟨slots⟩ k stopped reported given := by
  obtain ⟨earlier, command, later, kinds, rfl, passes, hcommand⟩ := commandKinds_error refused
  have member : command ∈ earlier ++ command :: later := by simp
  obtain ⟨role, hcall⟩ := callKind_of_commandKind_error (known command member) hcommand
  obtain ⟨name, tokens, args, numbers⟩ := readable command member role
  obtain ⟨before, slot, after, hbefore, hslot, -, rfl⟩ := slotsOf_append_eq_ok_iff.mp hslots
  obtain ⟨values, settles⟩ := exists_settles takes.of_append few hbefore passes
  obtain ⟨reported, given, rfl, corresponds, stops⟩ :=
    settles.exists_stops (fun _ member _ => Catalog.level_standard member) hslot role args numbers
      hcall after
  have length : kinds.length = before.length := by
    rw [← settles.kinds_eq, List.length_map, settles.length_eq]
  have settled : (settleAll before values).length = before.length :=
    length_settleAll settles.length_eq
  refine ⟨before.length + 1, _, ⟨reported, command.line, some (kinds.length + 1)⟩, given,
    ?_, ?_, stops, corresponds, ?_, ?_⟩
  · rw [checkCalls, refused]
    rfl
  · simp [length]
  · intro i command' hi found hrole
    have bound : i < earlier.length := by
      rw [← length_slotsOf hbefore]
      omega
    obtain ⟨name', tokens', args', -⟩ := readable command' (List.mem_of_getElem? found) hrole
    rw [List.getElem?_append_left bound] at found
    obtain ⟨value, -, -, hresult⟩ := settles.exists_result hbefore found hrole args'
    refine ⟨name', value, by rw [args', List.head?_cons], ?_⟩
    show (settleAll before values ++ slot :: after)[i]? = _
    rw [List.getElem?_append_left (by omega), hresult]
  · intro i hi
    exact settles.getElem?_of_le (slot :: after) (Nat.le_of_succ_le_succ hi)

end Refused

/-- **The check of calls and the run agree.**  On a list that keeps the other nine rules, whose
calls have names and numeric operands: the list becomes a program; the check passes exactly when the
run ends without a fault; it reports a call exactly when the run stops at that call; and whenever
the run fails, the calls before that one have become results, the lines from it on are as they were,
and the reasons of the check and of the run are of the same sort. -/
theorem checkCalls_agrees_with_run {commands : List Command}
    (rules : ∀ rule, rule ≠ Rule.calls → rule.check Catalog.standard commands = .ok ())
    (numeric : NumericCalls commands) :
    ∃ start : Program, ofCommands commands = .ok start ∧
      (Rule.calls.check Catalog.standard commands = .ok () ↔
        (start.run Catalog.standard).2 = none) ∧
      (∀ k : Nat,
        (∃ d, Rule.calls.check Catalog.standard commands = .error (.diagnostic d) ∧
            d.index = some (k : Int)) ↔
          ∃ stopped fault, start.StopsAt Catalog.standard k stopped fault) ∧
      ∀ (stopped : Program) (fault : Fault),
        start.run Catalog.standard = (stopped, some fault) →
          ∃ k reported given, fault = .diagnostic given ∧
            EndsAt Catalog.standard commands start k stopped reported given := by
  have declared := rules .declaredElements (by decide)
  have shape : KeepsShape commands :=
    ⟨rules .size (by decide), rules .oneGround (by decide), rules .knownRoles (by decide),
      rules .order (by decide), rules .hasCall (by decide), rules .hasDeclaration (by decide),
      rules .twoRoles (by decide)⟩
  have known := checkKnownRoles_eq_ok_iff.mp shape.known_roles
  obtain ⟨slots, hslots⟩ := exists_slots known declared numeric.readable
  obtain ⟨ground, rest, same, takes⟩ := exists_takesFrom shape declared
  have few : (FinSet.ofList ground.args).size < Text.digitBound := by
    have elements : checkGroundElements Catalog.standard commands = .ok () :=
      rules .groundElements (by decide)
    rw [same] at elements
    exact size_lt_of_checkGroundElements elements
  refine ⟨⟨slots⟩, ofCommands_of_slots hslots, ?_⟩
  cases checked : commandKinds Catalog.standard [] commands with
  | ok kinds =>
    obtain ⟨values, settles⟩ := exists_settles takes few hslots checked
    have passes : checkCalls Catalog.standard commands = .ok () := by
      rw [checkCalls, checked]
      rfl
    have runs := settles.run_eq
    have never (k : Nat) (stopped : Program) (fault : Fault) :
        ¬ StopsAt ⟨slots⟩ Catalog.standard k stopped fault := by
      intro stops
      have fails := stops.runLines_eq
      rw [← run, runs] at fails
      cases fails
    refine ⟨⟨fun _ => by rw [runs], fun _ => passes⟩, fun k => ⟨?_, ?_⟩, ?_⟩
    · intro h
      obtain ⟨d, hd, -⟩ := h
      cases passes.symm.trans hd
    · intro h
      obtain ⟨stopped, fault, stops⟩ := h
      exact absurd stops (never k stopped fault)
    · intro stopped fault hrun
      cases runs.symm.trans hrun
  | error fault =>
    obtain ⟨k, stopped, reported, given, ends⟩ :=
      exists_endsAt takes few known numeric.readable hslots checked
    have fails := ends.stops.runLines_eq
    rw [← run] at fails
    refine ⟨by simp [Rule.check, ends.reports, fails], fun k' => ?_, ?_⟩
    · constructor
      · intro h
        obtain ⟨d, hd, hindex⟩ := h
        obtain rfl : reported = d := by simpa [Rule.check, ends.reports] using hd
        obtain rfl : k = k' :=
          Int.ofNat_inj.mp (Option.some.inj (ends.index.symm.trans hindex))
        exact ⟨stopped, _, ends.stops⟩
      · intro h
        obtain ⟨stopped', fault', stops⟩ := h
        obtain ⟨rfl, -, -⟩ := ends.stops.unique stops
        exact ⟨reported, ends.reports, ends.index⟩
    · intro stopped' fault' hrun
      obtain ⟨rfl, hfault⟩ := Prod.mk.inj (fails.symm.trans hrun)
      exact ⟨k, reported, given, (Option.some.inj hfault).symm, ends⟩

/-- A program whose second call measures a relation. -/
def refusedCommands : List Command :=
  [⟨"U", ["a", "b"], some 1⟩, ⟨"R", ["a", "b"], some 2⟩, ⟨"C", ["domain", "02"], some 3⟩,
   ⟨"C", ["card", "2"], some 4⟩, ⟨"C", ["card", "3"], some 5⟩]

theorem stopsAt_refusedCommands :
    (∀ rule, rule ≠ Rule.calls → rule.check Catalog.standard refusedCommands = .ok ()) ∧
      NumericCalls refusedCommands ∧
      ∃ start stopped fault, ofCommands refusedCommands = .ok start ∧
        start.StopsAt Catalog.standard 4 stopped fault := by
  have rules : ∀ rule, rule ≠ Rule.calls →
      rule.check Catalog.standard refusedCommands = .ok () := by
    intro rule other
    cases rule with
    | calls => exact absurd rfl other
    | size | oneGround | knownRoles | order | hasCall | hasDeclaration | twoRoles | groundElements
    | declaredElements => decide +kernel
  have numeric : NumericCalls refusedCommands := by
    simp only [NumericCalls, refusedCommands, List.forall_mem_cons]
    refine ⟨nofun, nofun, fun _ => ⟨"domain", ["02"], rfl, ?_⟩, fun _ => ⟨"card", ["2"], rfl, ?_⟩,
      fun _ => ⟨"card", ["3"], rfl, ?_⟩, nofun⟩
    all_goals simp [← String.length_toList]
  obtain ⟨start, hstart, -, stops, -⟩ := checkCalls_agrees_with_run rules numeric
  obtain ⟨stopped, fault, hstops⟩ := (stops 4).mp
    ⟨⟨.operandLevel "card" .set 2 .relation, some 4, some 4⟩, by decide +kernel, rfl⟩
  exact ⟨rules, numeric, start, stopped, fault, hstart, hstops⟩

end RelCalc.Program
