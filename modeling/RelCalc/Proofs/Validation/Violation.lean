/-
  `Proofs.Validation.Violation`: what validation reports.

  What it is to keep a rule and what it is to break it are stated without the checks:
  `Keeps` for each rule, and `Breaks` for each rule and each diagnostic about it, which
  names the first offender.  A check that fails while the rules before it are kept
  reports a diagnostic that breaks its rule.  So the later checks may rely on what the
  earlier ones have established, and validation never ends without a verdict.
-/
import RelCalc.Proofs.Validation.FirstOffender
import RelCalc.Proofs.Validation.Grammar

set_option autoImplicit false

namespace RelCalc.Validation

open Outcome

/-! ## Rules that are kept -/

/-- The rules that are checked before a rule. -/
def Rule.earlier (rule : Rule) : List Rule := Rule.all.takeWhile (· ≠ rule)

/-- What it is to keep a rule. -/
def Keeps (catalog : Catalog) (commands : List Command) : Rule → Prop
  | .size => commands ≠ [] ∧ commands.length ≤ 1000
  | .oneGround => commands.countP (fun command => command.role? = some .ground) = 1
  | .knownRoles => ∀ command ∈ commands, command.role? ≠ none
  | .order => (commands.head?.bind Command.role?) = some .ground ∧ CallsLast commands
  | .hasCall => ∃ command ∈ commands, command.role? = some .call
  | .hasDeclaration =>
      ∃ command ∈ commands, command.role? = some .set ∨ command.role? = some .relation
  | .twoRoles => ∃ a ∈ commands, ∃ b ∈ commands, a.role? ≠ b.role?
  | .groundElements => ∀ ground, commands.head? = some ground →
      (∀ element ∈ ground.args, IsElement catalog element) ∧ ground.args.Nodup
  | .declaredElements => ∀ ground, commands.head? = some ground → ∀ command ∈ commands,
      declares command.role? = true → IsDeclaration ground.args command
  | .calls => ∀ (i : Nat) (command : Command), commands[i]? = some command →
      command.role? = some .call → CallTyped catalog (commands.take i) command

/-! ## Diagnostics that break a rule -/

/-- The diagnostic that names the command in a place. -/
def blame (command : Command) (i : Nat) (cause : Cause) : Diagnostic :=
  ⟨cause, command.line, some (i + 1 : Nat)⟩

/-- What is wrong with a declaration, the first thing that is. -/
inductive DeclarationDefect (ground : List Element) (command : Command) : Cause → Prop where
  | foreignElement {i : Nat} {element : Element}
      (first : FirstAt (fun _ other => other ∉ ground) command.args i element) :
      DeclarationDefect ground command (.foreignElement element)
  | halfPair (inside : ∀ element ∈ command.args, element ∈ ground)
      (role : command.role? = some .relation) (odd : command.args.length % 2 = 1) :
      DeclarationDefect ground command (.halfPair command.args.length)
  | repeatedElement {i : Nat} {element : Element}
      (inside : ∀ element ∈ command.args, element ∈ ground) (role : command.role? = some .set)
      (first : FirstAt (fun j other => other ∈ command.args.drop (j + 1)) command.args i element) :
      DeclarationDefect ground command (.repeatedElement element)
  | repeatedPair {pairs : List (Element × Element)} {i : Nat} {pair : Element × Element}
      (inside : ∀ element ∈ command.args, element ∈ ground)
      (role : command.role? = some .relation) (paired : command.args = Relation.flatten pairs)
      (first : FirstAt (fun j other => other ∈ pairs.drop (j + 1)) pairs i pair) :
      DeclarationDefect ground command (.repeatedPair pair)

/-- An operand refers to an earlier line of the expected kind; for the first operand this has to be
the kind that the operation works on. -/
def OperandFits (catalog : Catalog) (earlier : List Command) (op : Operation) (position : Nat)
    (token : String) (expected : Kind) : Prop :=
  Refers catalog earlier token expected ∧ (position = 1 → expected = op.level)

/-- What is wrong with an operand, the first thing that is. -/
inductive OperandDefect (catalog : Catalog) (earlier : List Command) (op : Operation)
    (name : String) (position : Nat) (token : String) (expected : Kind) : Cause → Prop where
  | notIndex (none : ∀ n, Text.Denotes token n → n = 0) :
      OperandDefect catalog earlier op name position token expected
        (.operandNotIndex position name token)
  | notEarlier {n : Nat} (denotes : Text.Denotes token n) (behind : earlier.length < n) :
      OperandDefect catalog earlier op name position token expected
        (.operandNotEarlier position name n)
  | level {n : Nat} {target : Command} {actual : Kind} (denotes : Text.Denotes token n)
      (positive : 1 ≤ n) (found : earlier[n - 1]? = some target)
      (static : staticKind? catalog target = some actual) (first : position = 1)
      (other : actual ≠ op.level) :
      OperandDefect catalog earlier op name position token expected
        (.operandLevel name op.level n actual)
  | kind {n : Nat} {target : Command} {actual : Kind} (denotes : Text.Denotes token n)
      (positive : 1 ≤ n) (found : earlier[n - 1]? = some target)
      (static : staticKind? catalog target = some actual)
      (level : position = 1 → actual = op.level) (other : actual ≠ expected) :
      OperandDefect catalog earlier op name position token expected
        (.operandKind position name expected n actual)

/-- What is wrong with a call, the first thing that is: it has no name, there is no operation of
that name, the number of operands is wrong, or an operand does not fit. -/
inductive CallDefect (catalog : Catalog) (earlier : List Command) (command : Command) :
    Cause → Prop where
  | nameless (args : command.args = []) : CallDefect catalog earlier command .namelessCall
  | unknown {name : String} {tokens : List String} (args : command.args = name :: tokens)
      (unknown : name ∉ catalog.names) :
      CallDefect catalog earlier command (.unknownOperation name)
  | arity {name : String} {tokens : List String} {op : Operation}
      (args : command.args = name :: tokens) (known : op ∈ catalog.entries) (named : op.name = name)
      (arity : tokens.length ≠ op.arity) :
      CallDefect catalog earlier command (.arity name op.arity tokens.length)
  | operand {name : String} {tokens : List String} {op : Operation} {k : Nat} {token : String}
      {expected : Kind} {cause : Cause} (args : command.args = name :: tokens)
      (known : op ∈ catalog.entries) (named : op.name = name) (arity : tokens.length = op.arity)
      (first : FirstAt (fun j (pair : String × Kind) =>
        ¬ OperandFits catalog earlier op (j + 1) pair.1 pair.2)
          (tokens.zip op.operands) k (token, expected))
      (defect : OperandDefect catalog earlier op name (k + 1) token expected cause) :
      CallDefect catalog earlier command cause

/-- A diagnostic that says how a rule is broken, and names the first offender. -/
inductive Breaks (catalog : Catalog) (commands : List Command) : Rule → Diagnostic → Prop where
  | noCommands (empty : commands = []) : Breaks catalog commands .size ⟨.noCommands, none, none⟩
  | tooManyCommands {command : Command} (long : 1000 < commands.length)
      (found : commands[1000]? = some command) :
      Breaks catalog commands .size (blame command 1000 (.tooManyCommands commands.length))
  | noGround (none : ∀ command ∈ commands, command.role? ≠ some .ground) :
      Breaks catalog commands .oneGround ⟨.noGround, .none, .none⟩
  | manyGrounds {i : Nat} {command : Command}
      (second : FirstAt (fun k other => other.role? = some .ground ∧
        ∃ j earlier, j < k ∧ commands[j]? = some earlier ∧ earlier.role? = some .ground)
          commands i command) :
      Breaks catalog commands .oneGround (blame command i
        (.manyGrounds (commands.countP fun other => other.role? = some .ground)))
  | unknownWord {i : Nat} {command : Command}
      (first : FirstAt (fun _ other => other.role? = none) commands i command) :
      Breaks catalog commands .knownRoles (blame command i (.unknownWord command.word))
  | groundNotFirst {command : Command} (head : commands.head? = some command)
      (other : command.role? ≠ some .ground) :
      Breaks catalog commands .order (blame command 0 .groundNotFirst)
  | lateDeclaration {k i : Nat} {call command : Command} {role : Role}
      (head : (commands.head?.bind Command.role?) = some .ground)
      (firstCall : FirstAt (fun _ other => other.role? = some .call) commands k call)
      (late : FirstAt (fun j other => k < j ∧ other.role? ≠ some .call) commands i command)
      (known : command.role? = some role) :
      Breaks catalog commands .order (blame command i (.lateDeclaration role.letter (k + 1)))
  | noCall (none : ∀ command ∈ commands, command.role? ≠ some .call) :
      Breaks catalog commands .hasCall ⟨.noCall, .none, .none⟩
  | noDeclaration (none : ∀ command ∈ commands,
        ¬ (command.role? = some .set ∨ command.role? = some .relation)) :
      Breaks catalog commands .hasDeclaration ⟨.noDeclaration, .none, .none⟩
  | groundElement {ground : Command} {i k : Nat} {element : Element} {defect : ElementDefect}
      (head : commands.head? = some ground)
      (first : FirstAt
        (fun j other => ∃ defect, HasDefect catalog (ground.args.take j) other defect)
        ground.args i element)
      (firstDefect : FirstAt (fun _ => HasDefect catalog (ground.args.take i) element)
        defectOrder k defect) :
      Breaks catalog commands .groundElements (blame ground 0 (.groundElement element defect))
  | declaration {ground command : Command} {i : Nat} {cause : Cause}
      (head : commands.head? = some ground)
      (first : FirstAt (fun _ other => declares other.role? = true ∧
        ¬ IsDeclaration ground.args other) commands i command)
      (defect : DeclarationDefect ground.args command cause) :
      Breaks catalog commands .declaredElements (blame command i cause)
  | call {command : Command} {i : Nat} {cause : Cause}
      (first : FirstAt (fun j other => other.role? = some .call ∧
        ¬ CallTyped catalog (commands.take j) other) commands i command)
      (defect : CallDefect catalog (commands.take i) command cause) :
      Breaks catalog commands .calls (blame command i cause)

/-- The words by which diagnostics name a rule. -/
def Rule.words : Rule → List String
  | size => ["size"]
  | oneGround => ["single-universe"]
  | knownRoles => ["command-kind"]
  | order => ["ordering"]
  | hasCall => ["has-invocation"]
  | hasDeclaration => ["has-declaration"]
  | twoRoles => ["distinct-kinds"]
  | groundElements => ["universe-element"]
  | declaredElements => ["set-element"]
  | calls => ["operation", "arity", "operand"]

/-! ## Checks that pass -/

section Checks

variable {catalog : Catalog} {commands : List Command} {fault : Fault}

theorem keeps_twoRoles (passes : checkTwoRoles commands = .ok ()) :
    Keeps catalog commands .twoRoles := by
  unfold checkTwoRoles at passes
  split at passes
  · cases passes
  rename_i many
  have distinct := (FinSet.ofList (commands.map Command.role?)).nodup
  have member {role : Option Role}
      (inside : role ∈ (FinSet.ofList (commands.map Command.role?)).toList) :
      ∃ command ∈ commands, command.role? = role := by
    rw [← FinSet.mem_def, FinSet.mem_ofList] at inside
    exact List.mem_map.mp inside
  unfold FinSet.size at many
  rcases roles : (FinSet.ofList (commands.map Command.role?)).toList with
    _ | ⟨first, _ | ⟨second, rest⟩⟩
  · simp [roles] at many
  · simp [roles] at many
  · rw [roles] at member distinct
    obtain ⟨a, ha, hfirst⟩ := member List.mem_cons_self
    obtain ⟨b, hb, hsecond⟩ := member (List.mem_cons_of_mem _ List.mem_cons_self)
    refine ⟨a, ha, b, hb, ?_⟩
    rw [hfirst, hsecond]
    exact fun same => (List.nodup_cons.mp distinct).1 (same ▸ List.mem_cons_self)

/-- A rule about anything but calls is kept when its check passes. -/
theorem keeps_of_check_of_ne {rule : Rule} (notCalls : rule ≠ .calls)
    (passes : rule.check catalog commands = .ok ()) : Keeps catalog commands rule := by
  cases rule with
  | size => exact checkSize_eq_ok_iff.mp passes
  | oneGround => exact checkOneGround_eq_ok_iff.mp passes
  | knownRoles => exact checkKnownRoles_eq_ok_iff.mp passes
  | order => exact checkOrder_eq_ok_iff.mp passes
  | hasCall => exact checkHasCall_eq_ok_iff.mp passes
  | hasDeclaration => exact checkHasDeclaration_eq_ok_iff.mp passes
  | twoRoles => exact keeps_twoRoles passes
  | groundElements =>
    cases commands with
    | nil => cases passes
    | cons ground rest =>
      have checked : checkGroundElements catalog (ground :: rest) = .ok () := passes
      rintro _ ⟨⟩
      exact checkGroundElements_cons_eq_ok_iff.mp checked
  | declaredElements =>
    cases commands with
    | nil => cases passes
    | cons ground rest =>
      rintro _ ⟨⟩
      exact checkDeclaredElements_cons_eq_ok_iff.mp passes
  | calls => exact absurd rfl notCalls

/-- A rule whose check passes is kept. -/
theorem keeps_of_check (short : ShortOperands commands) {rule : Rule}
    (passes : rule.check catalog commands = .ok ()) : Keeps catalog commands rule := by
  by_cases calls : rule = .calls
  · subst calls
    exact ((checkCalls_eq_ok_iff short).mp passes).2
  · exact keeps_of_check_of_ne calls passes

/-! ## Checks of the shape that fail -/

/-- A check reports how its rule is broken. -/
def Reports (catalog : Catalog) (commands : List Command) (rule : Rule) (fault : Fault) : Prop :=
  ∃ d : Diagnostic, fault = .diagnostic d ∧ Breaks catalog commands rule d

theorem violationAt_of_getElem? {command : Command} {i : Nat} (cause : Cause)
    (found : commands[i]? = some command) :
    violationAt cause commands (i + 1) = .error (.diagnostic (blame command i cause)) := by
  rw [violationAt, Nat.add_sub_cancel, found]
  rfl

/-- A violation by a command is reported for it. -/
theorem reports_of_violationAt {rule : Rule} {command : Command} {i : Nat} {cause : Cause}
    (found : commands[i]? = some command)
    (breaks : Breaks catalog commands rule (blame command i cause))
    (refused : violationAt cause commands (i + 1) = .error fault) :
    Reports catalog commands rule fault := by
  rw [violationAt_of_getElem? cause found] at refused
  exact ⟨_, (Except.error.inj refused).symm, breaks⟩

theorem reports_size (refused : checkSize commands = .error fault) :
    Reports catalog commands .size fault := by
  unfold checkSize at refused
  split at refused
  · rename_i empty
    exact ⟨_, (Except.error.inj refused).symm, .noCommands empty⟩
  · split at refused
    · rename_i long
      have found : commands[1000]? = some commands[1000] := List.getElem?_eq_getElem long
      exact reports_of_violationAt found (.tooManyCommands long found) refused
    · cases refused

theorem reports_oneGround (refused : checkOneGround commands = .error fault) :
    Reports catalog commands .oneGround fault := by
  unfold checkOneGround at refused
  split at refused
  · rename_i none
    refine ⟨_, (Except.error.inj refused).symm, .noGround fun command member role => ?_⟩
    obtain ⟨i, found⟩ := List.getElem?_of_mem member
    have inside : i + 1 ∈ positionsOf .ground commands :=
      mem_positionsOf_iff.mpr ⟨i, command, rfl, found, role⟩
    rw [none] at inside
    cases inside
  · cases refused
  · rename_i first second rest many
    obtain ⟨i, command, rfl, earliest⟩ := exists_firstAt_of_positionsOf_two many
    rw [← many, length_positionsOf] at refused
    exact reports_of_violationAt earliest.found (.manyGrounds earliest) refused

theorem reports_knownRoles (refused : checkKnownRoles commands = .error fault) :
    Reports catalog commands .knownRoles fault := by
  unfold checkKnownRoles at refused
  split at refused
  · cases refused
  · rename_i command position found
    obtain ⟨i, rfl, first⟩ := exists_firstAt_of_find?_number found
    refine reports_of_violationAt first.found
      (.unknownWord (first.congr fun j other _ => ?_)) refused
    exact decide_eq_true_iff

theorem reports_order (nonempty : commands ≠ [])
    (known : ∀ command ∈ commands, command.role? ≠ none)
    (refused : checkOrder commands = .error fault) : Reports catalog commands .order fault := by
  cases commands with
  | nil => exact absurd rfl nonempty
  | cons ground rest =>
    simp only [checkOrder] at refused
    split at refused
    · rename_i role
      have head : ((ground :: rest).head?.bind Command.role?) = some .ground := role
      unfold checkLateDeclarations at refused
      split at refused
      · cases refused
      rename_i position later calls
      obtain ⟨k, call, rfl, firstCall⟩ := exists_firstAt_of_positionsOf calls
      split at refused
      · cases refused
      rename_i command position found
      obtain ⟨i, rfl, first⟩ := exists_firstAt_of_find?_number found
      have late := first.congr (Q := fun j other => k < j ∧ other.role? ≠ some .call)
        fun j other _ => by simp
      split at refused
      · rename_i unknown
        exact absurd unknown (known command first.mem)
      · rename_i role hrole
        exact reports_of_violationAt first.found
          (.lateDeclaration head firstCall late hrole) refused
    · rename_i other
      exact reports_of_violationAt (i := 0) rfl (.groundNotFirst rfl other) refused

theorem reports_hasCall (refused : checkHasCall commands = .error fault) :
    Reports catalog commands .hasCall fault := by
  unfold checkHasCall at refused
  split at refused
  · cases refused
  · rename_i none
    exact ⟨_, (Except.error.inj refused).symm, .noCall (by simpa using none)⟩

theorem reports_hasDeclaration (refused : checkHasDeclaration commands = .error fault) :
    Reports catalog commands .hasDeclaration fault := by
  unfold checkHasDeclaration at refused
  split at refused
  · cases refused
  · rename_i none
    refine ⟨_, (Except.error.inj refused).symm, .noDeclaration fun command member => ?_⟩
    rw [← declares_iff]
    simp only [List.any_eq_true, not_exists, not_and] at none
    exact none command member

end Checks

/-! ## Checks of the elements that fail -/

section Elements

variable {catalog : Catalog} {ground command : Command} {rest : List Command} {fault : Fault}

theorem reports_groundElements
    (refused : checkGroundElements catalog (ground :: rest) = .error fault) :
    Reports catalog (ground :: rest) .groundElements fault := by
  simp only [checkGroundElements] at refused
  split at refused
  · cases refused
  · rename_i element defect found
    obtain ⟨i, first, hdefect⟩ := exists_firstAt_of_firstDefect? found
    simp only [List.nil_append] at first hdefect
    obtain ⟨k, firstDefect⟩ := exists_firstAt_of_elementDefect? hdefect
    exact ⟨_, (Except.error.inj refused).symm, .groundElement rfl first firstDefect⟩

/-- What is found wrong with a declaration is the first thing that is. -/
theorem declarationDefect_of_some {elements : List Element} {cause : Cause}
    (found : declarationDefect? elements command = some cause) :
    DeclarationDefect elements command cause := by
  unfold declarationDefect? at found
  split at found
  · cases found
  rename_i declaring
  rw [Bool.not_eq_true', Bool.not_eq_false, declares_iff] at declaring
  split at found
  · rename_i element foreign
    cases found
    obtain ⟨i, first⟩ := exists_firstAt_of_find? foreign
    exact .foreignElement (first.congr fun j other _ => decide_eq_true_iff)
  rename_i none
  have inside : ∀ element ∈ command.args, element ∈ elements := by simpa using none
  split at found
  · rename_i role
    obtain ⟨element, repeated, rfl⟩ := Option.map_eq_some_iff.mp found
    obtain ⟨i, first⟩ := exists_firstAt_of_firstRepeated? repeated
    exact .repeatedElement inside role first
  · rename_i notSet
    have role := declaring.resolve_left notSet
    unfold relationDefect? at found
    split at found
    · rename_i odd
      cases found
      exact .halfPair inside role (Relation.pairUp?_eq_none_iff.mp odd)
    · rename_i pairs paired
      obtain ⟨pair, repeated, rfl⟩ := Option.map_eq_some_iff.mp found
      obtain ⟨i, first⟩ := exists_firstAt_of_firstRepeated? repeated
      exact .repeatedPair inside role (pairUp?_eq_some_iff.mp paired) first

theorem reports_declaredElements (refused : checkDeclaredElements (ground :: rest) = .error fault) :
    Reports catalog (ground :: rest) .declaredElements fault := by
  simp only [checkDeclaredElements] at refused
  obtain ⟨i, command, cause, first, found, rfl⟩ := exists_firstAt_of_checkEach refused
  have earliest := first.congr (Q := fun _ other => declares other.role? = true ∧
    ¬ IsDeclaration ground.args other) fun j other _ => by
      rw [ne_eq, declarationDefect?_eq_none_iff, Classical.not_imp]
  refine ⟨_, ?_, .declaration rfl earliest (declarationDefect_of_some found)⟩
  rw [blame, Nat.add_comm]

end Elements

/-! ## Checks of calls that fail -/

section Calls

variable {catalog : Catalog} {earlier : List Command} {kinds : List Kind} {op : Operation}
  {name : String} {report : Cause → Fault} {fault : Fault}

/-- A short operand that does not pass is reported for the first thing that is wrong with it. -/
theorem operandDefect_of_error (statics : earlier.map (staticKind? catalog) = kinds.map some)
    {position : Nat} {token : String} {expected : Kind} (short : token.length ≤ Text.maxDigits)
    (refused : checkOperand kinds op name report position token expected = .error fault) :
    ∃ cause, fault = report cause ∧
      OperandDefect catalog earlier op name position token expected cause := by
  unfold checkOperand at refused
  cases read : Text.readNatural token with
  | error why =>
    obtain ⟨rfl, none⟩ := Text.readNatural_error_of_short short read
    simp only [read] at refused
    exact ⟨_, (Except.error.inj refused).symm, .notIndex fun n denotes => absurd denotes (none n)⟩
  | ok n =>
    have denotes := Text.Denotes.of_read read
    simp only [read] at refused
    split at refused
    · rename_i zero
      subst zero
      exact ⟨_, (Except.error.inj refused).symm, .notIndex fun m other => other.unique denotes⟩
    rename_i positive
    split at refused
    · rename_i absent
      have behind := List.getElem?_eq_none_iff.mp absent
      rw [length_of_map_staticKind? statics] at behind
      exact ⟨_, (Except.error.inj refused).symm, .notEarlier denotes (by omega)⟩
    · rename_i actual held
      -- The kind found for the line is the static kind of its command.
      have mapped := congrArg (·[n - 1]?) statics
      simp only [List.getElem?_map, held, Option.map_some, Option.map_eq_some_iff] at mapped
      obtain ⟨target, found, static⟩ := mapped
      split at refused
      · rename_i level
        exact ⟨_, (Except.error.inj refused).symm,
          .level denotes (by omega) found static level.1 level.2⟩
      rename_i level
      split at refused
      · rename_i other
        refine ⟨_, (Except.error.inj refused).symm, .kind denotes (by omega) found static ?_ other⟩
        simpa using level
      · cases refused

/-- An operand passes: it fits and is not longer than a number may be. -/
def OperandPasses (catalog : Catalog) (earlier : List Command) (op : Operation) (position : Nat)
    (token : String) (expected : Kind) : Prop :=
  OperandFits catalog earlier op position token expected ∧ token.length ≤ 4300

theorem checkOperand_eq_ok_iff_operandPasses
    (statics : earlier.map (staticKind? catalog) = kinds.map some) {position : Nat} {token : String}
    {expected : Kind} : checkOperand kinds op name report position token expected = .ok () ↔
      OperandPasses catalog earlier op position token expected := by
  rw [checkOperand_eq_ok_iff, referent?_kinds_eq_some_iff statics, OperandPasses, OperandFits]
  exact and_right_comm

/-- Operands that do not pass stop the check at the first that does not. -/
theorem exists_firstAt_of_checkOperands
    (statics : earlier.map (staticKind? catalog) = kinds.map some) {position : Nat}
    {pairs : List (String × Kind)}
    (refused : checkOperands kinds op name report position pairs = .error fault) :
    ∃ k token expected, FirstAt (fun j (pair : String × Kind) =>
        ¬ OperandPasses catalog earlier op (position + j) pair.1 pair.2) pairs k (token, expected) ∧
      checkOperand kinds op name report (position + k) token expected = .error fault := by
  induction pairs generalizing position with
  | nil => cases refused
  | cons pair rest ih =>
    obtain ⟨token, expected⟩ := pair
    rcases bind_eq_error_iff.mp refused with here | ⟨_, passes, behind⟩
    · refine ⟨0, token, expected, .head ?_, here⟩
      dsimp only
      rw [Nat.add_zero, ← checkOperand_eq_ok_iff_operandPasses statics, here]
      nofun
    · obtain ⟨k, token', expected', least, later⟩ := ih behind
      simp only [Nat.add_assoc, Nat.add_comm 1] at least later
      refine ⟨k + 1, token', expected', .tail ?_ least, later⟩
      exact not_not.mpr ((checkOperand_eq_ok_iff_operandPasses statics).mp passes)

/-- Short operands that do not pass are reported for the first that does not fit. -/
theorem exists_operandDefect_of_checkOperands
    (statics : earlier.map (staticKind? catalog) = kinds.map some) {position : Nat}
    {pairs : List (String × Kind)} (short : ∀ pair ∈ pairs, pair.1.length ≤ Text.maxDigits)
    (refused : checkOperands kinds op name report position pairs = .error fault) :
    ∃ k token expected cause, fault = report cause ∧
      FirstAt (fun j (pair : String × Kind) =>
        ¬ OperandFits catalog earlier op (position + j) pair.1 pair.2) pairs k (token, expected) ∧
      OperandDefect catalog earlier op name (position + k) token expected cause := by
  obtain ⟨k, token, expected, first, stopped⟩ := exists_firstAt_of_checkOperands statics refused
  obtain ⟨cause, hfault, defect⟩ := operandDefect_of_error statics (short _ first.mem) stopped
  refine ⟨k, token, expected, cause, hfault, first.congr fun j pair found => ?_, defect⟩
  exact not_congr (and_iff_left (short pair (List.mem_of_getElem? found)))

/-- A call of short operands that does not pass is reported for the first thing that is wrong. -/
theorem callDefect_of_error (statics : earlier.map (staticKind? catalog) = kinds.map some)
    {command : Command} (short : ∀ token ∈ command.args.tail, token.length ≤ Text.maxDigits)
    (refused : callKind catalog kinds command = .error fault) :
    ∃ cause, fault = reportOn command kinds cause ∧ CallDefect catalog earlier command cause := by
  cases args : command.args with
  | nil =>
    rw [callKind_of_nil args] at refused
    exact ⟨_, (Except.error.inj refused).symm, .nameless args⟩
  | cons name tokens =>
    rw [args, List.tail_cons] at short
    cases found : catalog.find? name with
    | none =>
      rw [callKind_of_unknown args found] at refused
      exact ⟨_, (Except.error.inj refused).symm,
        .unknown args (Catalog.find?_eq_none_iff.mp found)⟩
    | some op =>
      obtain ⟨known, named⟩ := Catalog.mem_and_name_of_find? found
      by_cases arity : op.arity = tokens.length
      · rw [callKind_of_operands args found arity] at refused
        rcases bind_eq_error_iff.mp refused with operands | ⟨_, _, impossible⟩
        · obtain ⟨k, token, expected, cause, hfault, first, defect⟩ :=
            exists_operandDefect_of_checkOperands statics
              (fun pair member => short pair.1 (List.of_mem_zip member).1) operands
          simp only [Nat.add_comm 1] at first defect
          exact ⟨cause, hfault, .operand args known named arity.symm first defect⟩
        · cases impossible
      · rw [callKind_of_arity args found arity] at refused
        exact ⟨_, (Except.error.inj refused).symm, .arity args known named (Ne.symm arity)⟩

/-- A call passes: it is typed after the lines before it, and no operand is longer than a number
may be. -/
def CallPasses (catalog : Catalog) (earlier : List Command) (command : Command) : Prop :=
  CallTyped catalog earlier command ∧ ∀ token ∈ command.args.tail, token.length ≤ 4300

/-- A call fits the kinds found so far exactly when it passes after the lines that have them. -/
theorem callFits_iff_callPasses (statics : earlier.map (staticKind? catalog) = kinds.map some)
    {command : Command} : CallFits catalog kinds command ↔ CallPasses catalog earlier command := by
  constructor
  · intro h
    have short : ∀ token ∈ command.args.tail, token.length ≤ 4300 := by
      obtain ⟨name, tokens, op, args, -, fits⟩ := h
      rw [args, List.tail_cons]
      intro token member
      obtain ⟨n, read⟩ := fits.numbers token member
      exact (Text.readNatural_eq_ok_iff.mp read).2
    exact ⟨(callFits_iff statics short).mp h, short⟩
  · rintro ⟨typed, short⟩
    exact (callFits_iff statics short).mpr typed

/-- Calls that do not all pass stop the check at the first that does not. -/
theorem exists_firstAt_of_checkCalls {commands : List Command}
    (known : ∀ command ∈ commands, command.role? ≠ none)
    (refused : checkCalls catalog commands = .error fault) :
    ∃ i command kinds, FirstAt (fun j other => other.role? = some .call ∧
        ¬ CallPasses catalog (commands.take j) other) commands i command ∧
      (commands.take i).map (staticKind? catalog) = kinds.map some ∧ kinds.length = i ∧
        callKind catalog kinds command = .error fault := by
  rcases bind_eq_error_iff.mp refused with stopped | ⟨_, _, impossible⟩
  · obtain ⟨earlier, command, later, kinds, rfl, passes, hcommand⟩ := commandKinds_error stopped
    obtain ⟨statics, fits⟩ := commandKinds_eq_ok_iff.mp passes
    have member : command ∈ earlier ++ command :: later := by simp
    obtain ⟨role, hcall⟩ := callKind_of_commandKind_error (known command member) hcommand
    have here : (earlier ++ command :: later).take earlier.length = earlier := List.take_left
    refine ⟨earlier.length, command, kinds, ⟨by simp, ⟨role, fun passes => ?_⟩,
      fun j other before hother refused => ?_⟩, by rw [here, statics],
      length_of_map_staticKind? statics, hcall⟩
    · rw [here, ← callFits_iff_callPasses statics] at passes
      obtain ⟨name, tokens, op, args, found, hfits⟩ := passes
      rw [callKind_eq_ok_iff.mpr ⟨name, tokens, op, args, found, hfits, rfl⟩] at hcall
      cases hcall
    · rw [List.getElem?_append_left before] at hother
      have statics' : (earlier.take j).map (staticKind? catalog) = (kinds.take j).map some := by
        rw [List.map_take, statics, List.map_take]
      rw [List.take_append_of_le_length (Nat.le_of_lt before),
        ← callFits_iff_callPasses statics'] at refused
      exact refused.2 (fits j other hother refused.1)
  · cases impossible

theorem reports_calls {commands : List Command} (short : ShortOperands commands)
    (known : ∀ command ∈ commands, command.role? ≠ none)
    (refused : checkCalls catalog commands = .error fault) :
    Reports catalog commands .calls fault := by
  obtain ⟨i, command, kinds, first, statics, rfl, hcall⟩ :=
    exists_firstAt_of_checkCalls known refused
  obtain ⟨cause, rfl, defect⟩ :=
    callDefect_of_error statics (short command first.mem first.holds.1) hcall
  refine ⟨_, rfl, .call (first.congr fun j other found => ?_) defect⟩
  exact and_congr_right fun role =>
    not_congr (and_iff_left (short other (List.mem_of_getElem? found) role))

end Calls

/-! ## All rules -/

section Rules

variable {catalog : Catalog} {commands : List Command} {fault : Fault} {rule : Rule}
  {d : Diagnostic}

/-- Where the rules about shape are kept, there are two roles. -/
theorem checkTwoRoles_of_keeps (order : Keeps catalog commands .order)
    (hasCall : Keeps catalog commands .hasCall) : checkTwoRoles commands = .ok () := by
  obtain ⟨call, member, role⟩ := hasCall
  cases commands with
  | nil => cases member
  | cons ground rest =>
    have head : ground.role? = some .ground := order.1
    exact checkTwoRoles_of_mem List.mem_cons_self member (by simp [head, role])

/-- The checks before that of calls pass when their rules are kept. -/
theorem check_of_keeps (kept : ∀ other ∈ Rule.calls.earlier, Keeps catalog commands other) :
    ∀ other ∈ Rule.calls.earlier, other.check catalog commands = .ok () := by
  intro other before
  cases commands with
  | nil => exact absurd rfl (kept .size (by decide)).1
  | cons ground rest =>
    cases other with
    | size => exact checkSize_eq_ok_iff.mpr (kept _ before)
    | oneGround => exact checkOneGround_eq_ok_iff.mpr (kept _ before)
    | knownRoles => exact checkKnownRoles_eq_ok_iff.mpr (kept _ before)
    | order => exact checkOrder_eq_ok_iff.mpr (kept _ before)
    | hasCall => exact checkHasCall_eq_ok_iff.mpr (kept _ before)
    | hasDeclaration => exact checkHasDeclaration_eq_ok_iff.mpr (kept _ before)
    | twoRoles => exact checkTwoRoles_of_keeps (kept .order (by decide)) (kept .hasCall (by decide))
    | groundElements =>
      have passes : checkGroundElements catalog (ground :: rest) = .ok () :=
        checkGroundElements_cons_eq_ok_iff.mpr (kept _ before ground rfl)
      exact passes
    | declaredElements => exact checkDeclaredElements_cons_eq_ok_iff.mpr (kept _ before ground rfl)
    | calls => exact absurd before (by decide)

/-- A check of anything but calls that fails while the rules before it are kept reports how its rule
is broken. -/
theorem reports_of_check_error_of_ne (notCalls : rule ≠ .calls)
    (kept : ∀ other ∈ rule.earlier, Keeps catalog commands other)
    (refused : rule.check catalog commands = .error fault) :
    Reports catalog commands rule fault := by
  cases rule with
  | size => exact reports_size refused
  | oneGround => exact reports_oneGround refused
  | knownRoles => exact reports_knownRoles refused
  | order =>
    exact reports_order (kept .size (by decide)).1 (kept .knownRoles (by decide)) refused
  | hasCall => exact reports_hasCall refused
  | hasDeclaration => exact reports_hasDeclaration refused
  | twoRoles =>
    have passes := checkTwoRoles_of_keeps (kept .order (by decide)) (kept .hasCall (by decide))
    cases passes.symm.trans refused
  | groundElements =>
    cases commands with
    | nil => exact absurd rfl (kept .size (by decide)).1
    | cons ground rest => exact reports_groundElements refused
  | declaredElements =>
    cases commands with
    | nil => exact absurd rfl (kept .size (by decide)).1
    | cons ground rest => exact reports_declaredElements refused
  | calls => exact absurd rfl notCalls

/-- A check that fails while the rules before it are kept reports how its rule is broken. -/
theorem reports_of_check_error (short : ShortOperands commands)
    (kept : ∀ other ∈ rule.earlier, Keeps catalog commands other)
    (refused : rule.check catalog commands = .error fault) :
    Reports catalog commands rule fault := by
  by_cases calls : rule = .calls
  · subst calls
    exact reports_calls short (kept .knownRoles (by decide)) refused
  · exact reports_of_check_error_of_ne calls kept refused

/-- What checking rules in order stops at is a rule whose check fails, after rules whose checks
pass. -/
theorem exists_broken_of_checkRules {rules : List Rule}
    (refused : checkRules catalog commands rules = .error fault) : ∃ rule,
      (∀ other ∈ rules.takeWhile (· ≠ rule), other.check catalog commands = .ok ()) ∧
        rule.check catalog commands = .error fault := by
  induction rules with
  | nil => cases refused
  | cons first rest ih =>
    rcases bind_eq_error_iff.mp refused with here | ⟨_, passes, later⟩
    · exact ⟨first, by simp, here⟩
    · obtain ⟨rule, before, broken⟩ := ih later
      refine ⟨rule, fun other member => ?_, broken⟩
      rw [List.takeWhile_cons] at member
      split at member
      · rcases List.mem_cons.mp member with rfl | inside
        · exact passes
        · exact before other inside
      · cases member

/-- A list that is refused is refused by the check of a rule, and the rules before it are kept. -/
theorem exists_broken_of_check (refused : check catalog commands = .error fault) : ∃ rule : Rule,
    (∀ other ∈ rule.earlier, Keeps catalog commands other) ∧
      rule.check catalog commands = .error fault := by
  obtain ⟨rule, passes, stopped⟩ := exists_broken_of_checkRules refused
  refine ⟨rule, fun other before => keeps_of_check_of_ne ?_ (passes other before), stopped⟩
  -- The rule about calls is the last one, so it comes before none.
  rintro rfl
  cases rule <;> exact absurd before (by decide)

/-- A diagnostic names the rule that it is about. -/
theorem Breaks.rule_mem_words (h : Breaks catalog commands rule d) : d.rule ∈ rule.words := by
  cases h with
  | declaration _ _ defect => cases defect <;> exact List.mem_singleton.mpr rfl
  | call _ defect =>
    cases defect with
    | nameless | unknown | arity => simp [blame, Diagnostic.rule, Cause.rule, Rule.words]
    | operand _ _ _ _ _ defect =>
      cases defect <;> simp [blame, Diagnostic.rule, Cause.rule, Rule.words]
  | _ => exact List.mem_singleton.mpr rfl

/-- What breaks a rule about shape is a violation of the structure. -/
theorem Breaks.structural (h : Breaks catalog commands rule d)
    (shape : rule ∈ Rule.groundElements.earlier) : d.cause.category = .structural := by
  cases h with
  | groundElement | declaration | call => exact absurd shape (by decide)
  | _ => rfl

/-- What is wrong with an element or an operand is a violation of the meaning. -/
theorem Breaks.semantic (h : Breaks catalog commands rule d)
    (content : d.rule ∈ ["universe-element", "set-element", "operand"]) :
    d.cause.category = .semantic := by
  cases h with
  | groundElement => rfl
  | declaration _ _ defect => cases defect <;> rfl
  | call _ defect =>
    cases defect with
    | nameless | unknown | arity =>
      exact absurd content (by simp [blame, Diagnostic.rule, Cause.rule])
    | operand _ _ _ _ _ defect => cases defect <;> rfl
  | _ => exact absurd content (by simp [blame, Diagnostic.rule, Cause.rule])

/-- Whatever breaks a rule makes the command list invalid. -/
theorem Breaks.invalid (h : Breaks catalog commands rule d) :
    .invalid ∈ d.cause.category.ancestors := by
  cases h with
  | declaration _ _ defect => cases defect <;> exact List.mem_cons_self
  | call _ defect =>
    cases defect with
    | nameless | unknown | arity => exact List.mem_cons_self
    | operand _ _ _ _ _ defect => cases defect <;> exact List.mem_cons_self
  | _ => exact List.mem_cons_self

/-- The first violation: the rules before the one that is broken are kept, and the diagnostic says
how that one is broken, naming the first offender. -/
structure FirstViolation (catalog : Catalog) (commands : List Command) (rule : Rule)
    (d : Diagnostic) : Prop where
  kept : ∀ other ∈ rule.earlier, Keeps catalog commands other
  breaks : Breaks catalog commands rule d
  word : d.rule ∈ rule.words
  structural : rule ∈ Rule.groundElements.earlier → d.cause.category = .structural
  semantic : d.rule ∈ ["universe-element", "set-element", "operand"] →
    d.cause.category = .semantic
  not_twoRoles : rule ≠ .twoRoles

theorem firstViolation_of_breaks (kept : ∀ other ∈ rule.earlier, Keeps catalog commands other)
    (breaks : Breaks catalog commands rule d) : FirstViolation catalog commands rule d := by
  refine ⟨kept, breaks, breaks.rule_mem_words, breaks.structural, breaks.semantic, ?_⟩
  rintro rfl
  cases breaks

/-- **Validation reports the first violation.**  On a list whose operands are short enough to be
read, validation ends with a verdict; and a diagnostic that it gives is about the first of the rules
that is broken and names its first offender. -/
theorem validate_reports_first {catalog : Catalog} {commands : List Command}
    (short : ShortOperands commands) : (∃ verdict, validate catalog commands = .ok verdict) ∧
      ∀ d : Diagnostic, validate catalog commands = .ok (some d) →
        ∃ rule, FirstViolation catalog commands rule d := by
  cases checked : check catalog commands with
  | ok done =>
    have none := validate_eq_none_iff.mpr checked
    refine ⟨⟨.none, none⟩, fun d found => ?_⟩
    rw [none] at found
    cases found
  | error fault =>
    obtain ⟨rule, passes, refused⟩ := exists_broken_of_checkRules checked
    have kept : ∀ other ∈ rule.earlier, Keeps catalog commands other :=
      fun other member => keeps_of_check short (passes other member)
    obtain ⟨d, rfl, breaks⟩ := reports_of_check_error short kept refused
    have verdict : validate catalog commands = .ok (some d) := by
      rw [validate, checked]
    refine ⟨⟨some d, verdict⟩, fun d' found => ⟨rule, ?_⟩⟩
    rw [verdict] at found
    cases found
    exact firstViolation_of_breaks kept breaks

/-- Commands that break three rules: a relation is declared after the first call, the set has an
element that is not declared, and the relation has half a pair. -/
def misplacedCommands : List Command :=
  [⟨"U", ["a", "b"], some 1⟩, ⟨"S", ["c"], some 2⟩, ⟨"C", ["union", "1", "2"], some 3⟩,
    ⟨"R", ["a"], some 5⟩]

/-- The rule that is checked first is the one that is reported. -/
theorem validate_reports_first_misplacedCommands :
    ShortOperands misplacedCommands ∧ ∃ rule, FirstViolation Catalog.standard misplacedCommands rule
      ⟨.lateDeclaration "R" 3, some 5, some 4⟩ := by
  have short : ShortOperands misplacedCommands := by
    simp only [ShortOperands, misplacedCommands, List.forall_mem_cons]
    decide
  exact ⟨short, (validate_reports_first short).2 _ (by decide +kernel)⟩

end Rules

end RelCalc.Validation
