/-
  `Proofs.Validation.Grammar`: the language that validation accepts.

  `WellFormed` says what a program is without mentioning any check: a layout, the
  elements of the ground set, what declarations consist of, and a typing judgement
  for calls, in which an operand is a run of digits that denotes an earlier line.
  The main statement is that validation finds nothing exactly on these lists.

  Operands of more than 4300 characters are left out: reading one of them ends the
  validation with a fault that is no diagnostic, whatever the number is.
-/
import RelCalc.Proofs.Typing
import RelCalc.Proofs.Validation.Calls
import RelCalc.Proofs.Validation.Elements

set_option autoImplicit false

namespace RelCalc.Validation

open Outcome

/-! ## The grammar -/

/-- An operand: the number of an earlier line that holds a value of the kind. -/
def Refers (catalog : Catalog) (earlier : List Command) (token : String) (kind : Kind) : Prop :=
  ∃ j target, Text.Denotes token j ∧ 1 ≤ j ∧ earlier[j - 1]? = some target ∧
    staticKind? catalog target = some kind

/-- A call, after the given lines: it names an operation, its operands refer to earlier lines of
the kinds of the operation, and the first of these is the kind that the operation works on. -/
def CallTyped (catalog : Catalog) (earlier : List Command) (command : Command) : Prop :=
  ∃ name tokens op, command.args = name :: tokens ∧ op ∈ catalog.entries ∧ op.name = name ∧
    List.Forall₂ (Refers catalog earlier) tokens op.operands ∧
      ∀ kind, op.operands.head? = some kind → kind = op.level

/-- A well-formed program. -/
structure WellFormed (catalog : Catalog) (commands : List Command) : Prop where
  size : commands.length ≤ 1000
  layout : ∃ ground declarations calls,
    commands = ground :: (declarations ++ calls) ∧ Layout ground declarations calls
  elements : ∀ ground, commands.head? = some ground →
    (∀ element ∈ ground.args, IsElement catalog element) ∧ ground.args.Nodup
  declarations : ∀ ground, commands.head? = some ground → ∀ command ∈ commands,
    declares command.role? = true → IsDeclaration ground.args command
  calls : ∀ (i : Nat) (command : Command), commands[i]? = some command →
    command.role? = some .call → CallTyped catalog (commands.take i) command

/-- No operand of a call is longer than a number may be. -/
def ShortOperands (commands : List Command) : Prop :=
  ∀ command ∈ commands, command.role? = some .call →
    ∀ token ∈ command.args.tail, token.length ≤ 4300

/-! ## Static kinds and the grammar -/

section Kinds

variable {catalog : Catalog} {earlier : List Command} {kinds : List Kind}

/-- Among the kinds found so far, an operand refers to the static kind of the line it denotes. -/
theorem referent?_kinds_eq_some_iff
    (statics : earlier.map (staticKind? catalog) = kinds.map some) {token : String} {kind : Kind} :
    referent? kinds token = some kind ↔
      Refers catalog earlier token kind ∧ token.length ≤ Text.maxDigits := by
  have mapped : (referent? kinds token).map some =
      (referent? earlier token).map (staticKind? catalog) := by
    rw [← referent?_map, ← referent?_map, statics]
  have target : referent? kinds token = some kind ↔
      ∃ target, referent? earlier token = some target ∧ staticKind? catalog target = some kind := by
    rw [← Option.map_eq_some_iff, ← mapped, Option.map_eq_some_iff]
    simp
  simp only [target, referent?_eq_some_iff, Text.readNatural_eq_ok_iff, atLine?_eq_some_iff,
    Refers]
  constructor
  · intro h
    obtain ⟨target, ⟨j, ⟨denotes, short⟩, positive, found⟩, static⟩ := h
    exact ⟨⟨j, target, denotes, positive, found, static⟩, short⟩
  · intro h
    obtain ⟨⟨j, target, denotes, positive, found, static⟩, short⟩ := h
    exact ⟨target, ⟨j, ⟨denotes, short⟩, positive, found⟩, static⟩

/-- A call fits the kinds found so far exactly when it is typed after the lines that have them. -/
theorem callFits_iff (statics : earlier.map (staticKind? catalog) = kinds.map some)
    {command : Command} (short : ∀ token ∈ command.args.tail, token.length ≤ Text.maxDigits) :
    CallFits catalog kinds command ↔ CallTyped catalog earlier command := by
  have each {name : String} {tokens : List String} {op : Operation}
      (args : command.args = name :: tokens) :
      List.Forall₂ (fun token kind => referent? kinds token = some kind) tokens op.operands ↔
        List.Forall₂ (Refers catalog earlier) tokens op.operands := by
    simp only [List.forall₂_iff_zip, referent?_kinds_eq_some_iff statics]
    refine and_congr_right fun _ => ⟨fun h token kind member => (h member).1, ?_⟩
    intro h token kind member
    refine ⟨h member, short token ?_⟩
    rw [args, List.tail_cons]
    exact (List.of_mem_zip member).1
  constructor
  · rintro ⟨name, tokens, op, args, found, referents, level⟩
    obtain ⟨member, hname⟩ := Catalog.find?_eq_some_iff.mp found
    exact ⟨name, tokens, op, args, member, hname, (each args).mp referents, level⟩
  · rintro ⟨name, tokens, op, args, member, hname, referents, level⟩
    have found := Catalog.find?_eq_some_iff.mpr ⟨member, hname⟩
    exact ⟨name, tokens, op, args, found, (each args).mpr referents, level⟩

end Kinds

/-- A command with a role has a static kind, unless it is a call of no operation. -/
theorem exists_staticKind? {catalog : Catalog} {earlier : List Command} {command : Command}
    (role : command.role? ≠ none)
    (typed : command.role? = some .call → CallTyped catalog earlier command) :
    ∃ kind, staticKind? catalog command = some kind := by
  unfold staticKind?
  cases found : command.role? with
  | none => exact absurd found role
  | some known =>
    cases known with
    | ground | set | relation => exact ⟨_, rfl⟩
    | call =>
      obtain ⟨name, tokens, op, args, member, hname, -, -⟩ := typed found
      have hop : catalog.find? name = some op := Catalog.find?_eq_some_iff.mpr ⟨member, hname⟩
      exact ⟨op.result, by simp [args, hop]⟩

/-- Commands that have static kinds have a list of them. -/
theorem exists_staticKinds {catalog : Catalog} {commands : List Command}
    (each : ∀ command ∈ commands, ∃ kind, staticKind? catalog command = some kind) :
    ∃ kinds : List Kind, commands.map (staticKind? catalog) = kinds.map some := by
  induction commands with
  | nil => exact ⟨[], rfl⟩
  | cons command rest ih =>
    obtain ⟨⟨kind, hkind⟩, hrest⟩ := List.forall_mem_cons.mp each
    obtain ⟨kinds, hkinds⟩ := ih hrest
    exact ⟨kind :: kinds, by simp [hkind, hkinds]⟩

/-- The check of calls passes exactly when every command has a role and every call is typed after
the lines before it. -/
theorem checkCalls_eq_ok_iff {catalog : Catalog} {commands : List Command}
    (short : ShortOperands commands) :
    checkCalls catalog commands = .ok () ↔
      (∀ command ∈ commands, command.role? ≠ none) ∧
        ∀ (i : Nat) (command : Command), commands[i]? = some command →
          command.role? = some .call → CallTyped catalog (commands.take i) command := by
  have fits {kinds : List Kind} {i : Nat} {command : Command}
      (statics : commands.map (staticKind? catalog) = kinds.map some)
      (found : commands[i]? = some command) (role : command.role? = some .call) :
      CallFits catalog (kinds.take i) command ↔ CallTyped catalog (commands.take i) command := by
    refine callFits_iff ?_ (short command (List.mem_of_getElem? found) role)
    rw [List.map_take, statics, List.map_take]
  rw [checkCalls, bind_eq_ok_iff]
  simp only [pure_eq_ok_iff, and_true, commandKinds_eq_ok_iff]
  constructor
  · intro h
    obtain ⟨kinds, statics, calls⟩ := h
    constructor
    · intro command member hrole
      have static : staticKind? catalog command ∈ kinds.map some :=
        statics ▸ List.mem_map_of_mem member
      simp [staticKind?, hrole] at static
    · intro i command found role
      exact (fits statics found role).mp (calls i command found role)
  · intro h
    obtain ⟨known, calls⟩ := h
    obtain ⟨kinds, statics⟩ : ∃ kinds : List Kind,
        commands.map (staticKind? catalog) = kinds.map some := by
      refine exists_staticKinds fun command member => ?_
      obtain ⟨i, found⟩ := List.getElem?_of_mem member
      exact exists_staticKind? (known command member) (calls i command found)
    refine ⟨kinds, statics, fun i command found role => ?_⟩
    exact (fits statics found role).mpr (calls i command found role)

/-! ## All rules -/

theorem check_eq_ok_iff {catalog : Catalog} {commands : List Command} :
    check catalog commands = .ok () ↔
      KeepsShape commands ∧ checkGroundElements catalog commands = .ok () ∧
        checkDeclaredElements commands = .ok () ∧ checkCalls catalog commands = .ok () := by
  simp only [check, checkRules_eq_ok_iff, Rule.all, List.forall_mem_cons, List.not_mem_nil,
    false_implies, implies_true, and_true, Rule.check]
  constructor
  · intro h
    obtain ⟨size, ground, roles, order, call, declaration, two, contents⟩ := h
    exact ⟨⟨size, ground, roles, order, call, declaration, two⟩, contents⟩
  · intro h
    obtain ⟨⟨size, ground, roles, order, call, declaration, two⟩, contents⟩ := h
    exact ⟨size, ground, roles, order, call, declaration, two, contents⟩

/-- **Validation accepts exactly the well-formed programs.** -/
theorem validate_eq_none_iff_wellFormed {catalog : Catalog} {commands : List Command}
    (short : ShortOperands commands) :
    validate catalog commands = .ok none ↔ WellFormed catalog commands := by
  rw [validate_eq_none_iff, check_eq_ok_iff, checkCalls_eq_ok_iff short]
  constructor
  · intro h
    obtain ⟨shape, elements, declared, _, calls⟩ := h
    obtain ⟨ground, declarations, invocations, rfl, layout⟩ := shape.layout
    exact {
      size := (checkSize_eq_ok_iff.mp shape.size).2
      layout := ⟨ground, declarations, invocations, rfl, layout⟩
      elements := by
        rintro _ ⟨⟩
        exact checkGroundElements_cons_eq_ok_iff.mp elements
      declarations := by
        rintro _ ⟨⟩
        exact checkDeclaredElements_cons_eq_ok_iff.mp declared
      calls }
  · intro h
    obtain ⟨size, ⟨ground, declarations, invocations, rfl, layout⟩, elements, declared, calls⟩ := h
    have shape := layout.keepsShape size
    refine ⟨shape, checkGroundElements_cons_eq_ok_iff.mpr (elements ground rfl),
      checkDeclaredElements_cons_eq_ok_iff.mpr (declared ground rfl),
      checkKnownRoles_eq_ok_iff.mp shape.known_roles, calls⟩

/-- A small program: an operand with a leading zero, and one that refers to a result. -/
def sampleCommands : List Command :=
  [⟨"U", ["a", "b"], some 1⟩, ⟨"R", ["a", "b"], some 2⟩, ⟨"C", ["domain", "02"], some 3⟩,
   ⟨"C", ["card", "3"], some 4⟩]

theorem wellFormed_sampleCommands :
    ShortOperands sampleCommands ∧ WellFormed Catalog.standard sampleCommands := by
  have short : ShortOperands sampleCommands := by
    simp only [ShortOperands, sampleCommands, List.forall_mem_cons]
    decide
  exact ⟨short, (validate_eq_none_iff_wellFormed short).mp (by decide +kernel)⟩

end RelCalc.Validation
