/-
  `Proofs.Evaluation.History`: what becomes of the lines of a program.

  Slots are never added, removed or moved.  All that can happen to a slot is that a call
  is given other operands or overwritten with a result, and after that nothing more.  One
  step of a session keeps to this, whether it succeeds or fails; so does any sequence of
  steps.  And at every moment a line that is asked for its value answers what its slot
  holds, no matter when the registry was made.  An index that is not one of a line is
  reported as such, unless it is too long to be reported.
-/
import RelCalc.Proofs.Evaluation.Session

set_option autoImplicit false

namespace RelCalc

open Outcome

/-! ## The ground set -/

namespace Program

section Becomes

variable {p q : Program}

/-- The ground set of a program stays what its first command has declared. -/
theorem ground_of_becomes {commands : List Command} {declaration : Command}
    (made : ofCommands commands = .ok p) (becomes : p.Becomes q)
    (first : commands.head? = some declaration) (role : declaration.role? = some .ground) :
    q.ground = .ok (some (.set (FinSet.ofList declaration.args))) := by
  cases commands with
  | nil => cases first
  | cons command rest =>
    cases first
    obtain ⟨built, hbuilt, hcommand⟩ :=
      exists_slot_of_slotsOf (ofCommands_eq_ok_iff.mp made) List.getElem?_cons_zero
    obtain ⟨content, hcontent, rfl⟩ := slot_eq_ok_iff.mp hcommand
    rw [content_of_ground role] at hcontent
    cases hcontent
    exact becomes.ground (ground_of_first hbuilt)

end Becomes

end Program

/-! ## Sequences of steps -/

namespace Session

open Program

variable {s : Session} {catalog : Catalog} {commands : List Command} {start : Program}

/-- The session after some steps, each of which succeeds or fails. -/
def after (s : Session) (catalog : Catalog) (requests : List Step) : Session :=
  requests.foldl (fun s request => (s.step catalog request).1) s

theorem after_append (s : Session) (catalog : Catalog) (requests more : List Step) :
    s.after catalog (requests ++ more) = (s.after catalog requests).after catalog more :=
  List.foldl_append

/-- Steps keep a session coherent, and each slot in its place. -/
theorem coherent_becomes_after (coherent : s.Coherent) (catalog : Catalog) (requests : List Step) :
    (s.after catalog requests).Coherent ∧
      s.program.Becomes (s.after catalog requests).program := by
  induction requests generalizing s with
  | nil => exact ⟨coherent, .refl s.program⟩
  | cons request rest ih =>
    obtain ⟨program, -, coherent'⟩ := s.step_eq catalog coherent request
    obtain ⟨last, becomes⟩ := ih coherent'
    refine ⟨last, .trans ?_ becomes⟩
    rw [program]
    exact becomes_step coherent.indexed catalog request

/-- A line that is asked for its value answers what its slot holds; a line that has none, and an
index that is not one of a line, is reported as an operand without a usable value.  Only if such an
index has more than 4300 digits, the report itself fails. -/
structure AnswersValues (catalog : Catalog) (s : Session) : Prop where
  held : ∀ (index : Int) (line : Option Int) (slot : Slot), s.program.slot? index = some slot →
    slot.content.isCall = false → ∃ value, slot.value? = some value ∧
      (s.step catalog (.valueAt index line)).2 = .ok (.value (some value))
  call : ∀ (index : Int) (line : Option Int) (slot : Slot), s.program.slot? index = some slot →
    slot.content.isCall = true →
      ∃ fault, (s.step catalog (.valueAt index line)).2 = .error fault ∧ IsUnresolved fault
  outside : ∀ (index : Int) (line : Option Int), index < 1 ∨ (s.program.size : Int) < index →
    Text.isSpelled index = true →
      ∃ fault, (s.step catalog (.valueAt index line)).2 = .error fault ∧ IsUnresolved fault
  long : ∀ (index : Int) (line : Option Int), index < 1 ∨ (s.program.size : Int) < index →
    Text.isSpelled index = false →
      (s.step catalog (.valueAt index line)).2 = .error .notSpelled

/-- The lines of a session are those of the commands it was made from: each slot has the number of
its line as its index, and the source line of its command; a declaration holds what it declares, and
a call is a call of the same operation or a result of it. -/
structure KeepsLines (catalog : Catalog) (commands : List Command) (s : Session) : Prop where
  size : s.program.size = commands.length
  line : ∀ (i : Nat) (command : Command), commands[i]? = some command →
    ∃ built held, command.slot (i + 1) = .ok built ∧ s.program.slots[i]? = some held ∧
      built.Becomes held ∧ held.index = i + 1 ∧ held.line = command.line ∧
        (command.role? ≠ some .call → held = built) ∧
          (s.step catalog (.slot (i + 1 : Nat))).2 = .ok (.slot held)
  ground : ∀ declaration, commands.head? = some declaration →
    (s.step catalog .ground).2 = .ok (.value (some (.set (FinSet.ofList declaration.args))))

/-- What a later session has kept of an earlier one: each line, and whatever was not a call. -/
structure Continues (s t : Session) : Prop where
  becomes : s.program.Becomes t.program
  settled : ∀ (i : Nat) (held : Slot), s.program.slots[i]? = some held →
    held.content.isCall = false → t.program.slots[i]? = some held

/-- The answer to a question for a value is the program's own. -/
theorem valueAt_answer (coherent : s.Coherent) (catalog : Catalog) (index : Int)
    (line : Option Int) : (s.step catalog (.valueAt index line)).2 =
      (s.program.valueAt index line).map fun value => .value (some value) :=
  (s.step_eq catalog coherent (.valueAt index line)).2.1

theorem answersValues (coherent : s.Coherent) (catalog : Catalog) : AnswersValues catalog s := by
  -- A question that fails is answered with the fault of the program.
  have refused {index : Int} {line : Option Int} {fault : Fault}
      (failed : s.program.valueAt index line = .error fault) :
      (s.step catalog (.valueAt index line)).2 = .error fault := by
    rw [valueAt_answer coherent, failed]
    rfl
  refine ⟨fun index line slot found settled => ?_, fun index line slot found holdsCall => ?_,
    fun index line outside spelled => ?_, fun index line outside long => ?_⟩
  · have some : slot.value? ≠ none := by
      rw [Slot.value?, ne_eq, Content.value?_eq_none_iff, settled]
      exact Bool.false_ne_true
    obtain ⟨value, hvalue⟩ := Option.ne_none_iff_exists'.mp some
    obtain ⟨i, rfl, hslot⟩ := exists_of_slot? found
    refine ⟨value, hvalue, ?_⟩
    rw [valueAt_answer coherent, valueAt_eq_ok_iff.mpr ⟨i, slot, rfl, hslot, hvalue⟩]
    rfl
  · have none := (Content.value?_eq_none_iff slot.content).mpr holdsCall
    have failed : s.program.valueAt index line =
        .error (.diagnostic ⟨.noValueYet index, line.or slot.line, some index⟩) := by
      simp only [Program.valueAt, found, Slot.value?, none]
    exact ⟨_, refused failed, _, rfl, rfl⟩
  · have absent := slot?_eq_none_iff.mpr outside
    have failed : s.program.valueAt index line =
        .error (.diagnostic ⟨.outOfRange index s.program.size, line, some index⟩) := by
      simp only [Program.valueAt, absent, spelled, if_true]
    exact ⟨_, refused failed, _, rfl, rfl⟩
  · have absent := slot?_eq_none_iff.mpr outside
    have failed : s.program.valueAt index line = .error .notSpelled := by
      simp only [Program.valueAt, absent, long, Bool.false_eq_true, if_false]
    exact refused failed

/-- The lines of a coherent session whose program has come from commands. -/
theorem keepsLines (coherent : s.Coherent) (made : ofCommands commands = .ok start)
    (becomes : start.Becomes s.program) {declaration : Command}
    (first : commands.head? = some declaration) (role : declaration.role? = some .ground)
    (catalog : Catalog) : KeepsLines catalog commands s := by
  have hslots := ofCommands_eq_ok_iff.mp made
  refine ⟨?_, fun i command found => ?_, fun head hhead => ?_⟩
  · rw [becomes.size_eq]
    exact length_slotsOf hslots
  · obtain ⟨built, hbuilt, hcommand⟩ := exists_slot_of_slotsOf hslots found
    obtain ⟨held, hheld, become⟩ := becomes.exists_slot hbuilt
    obtain ⟨content, hcontent, rfl⟩ := slot_eq_ok_iff.mp hcommand
    refine ⟨_, held, hcommand, hheld, become, coherent.indexed i held hheld, become.line_eq,
      fun notCall => ?_, ?_⟩
    · refine become.eq_of_value ?_
      cases content with
      | call name operands => exact absurd (call_of_slot hcommand).1 notCall
      | ground | set | relation | result => rfl
    · have shown : s.program.slotAnswer (i + 1 : Nat) = .ok (.slot held) := by
        rw [slotAnswer, slot_succ hheld]
        rfl
      exact (s.step_eq catalog coherent (.slot (i + 1 : Nat))).2.1.trans shown
  · cases first.symm.trans hhead
    refine (s.step_eq catalog coherent .ground).2.1.trans ?_
    show s.program.ground.map Answer.value = _
    rw [ground_of_becomes made becomes first role]
    rfl

theorem continues (coherent : s.Coherent) (catalog : Catalog) (more : List Step) :
    Continues s (s.after catalog more) := by
  obtain ⟨-, becomes⟩ := coherent_becomes_after coherent catalog more
  refine ⟨becomes, fun i held found settled => ?_⟩
  obtain ⟨later, hlater, become⟩ := becomes.exists_slot found
  rw [hlater, become.eq_of_value settled]

/-- **Lines are never lost, moved or overwritten twice.**  Take a program made from commands,
checked or not, of which the first declares the ground set, and any sequence of steps, each of which
succeeds or fails.  Wherever this leads, the lines are those of the commands, and a line answers the
question for its value with what its slot holds.  Whatever steps follow, a call can still get other
operands or become a result; nothing else changes. -/
theorem lines_after {declaration : Command} (made : ofCommands commands = .ok start)
    (first : commands.head? = some declaration) (role : declaration.role? = some .ground)
    (catalog : Catalog) (requests : List Step) :
    KeepsLines catalog commands ((fresh start).after catalog requests) ∧
      AnswersValues catalog ((fresh start).after catalog requests) ∧
        ∀ more : List Step, Continues ((fresh start).after catalog requests)
          ((fresh start).after catalog (requests ++ more)) := by
  obtain ⟨coherent, becomes⟩ :=
    coherent_becomes_after (coherent_fresh (indexed_ofCommands made)) catalog requests
  refine ⟨keepsLines coherent made becomes first role catalog, answersValues coherent catalog,
    fun more => ?_⟩
  rw [after_append]
  exact continues coherent catalog more

/-- Commands that the check would refuse: the set has an element that is not declared, and the last
call refers to a line that there is not. -/
def uncheckedCommands : List Command :=
  [⟨"U", ["a", "b"], some 1⟩, ⟨"S", ["a", "z"], some 2⟩, ⟨"C", ["union", "1", "2"], none⟩,
    ⟨"C", ["complement", "9"], some 4⟩]

/-- The program that they make all the same. -/
def uncheckedProgram : Program :=
  ⟨[⟨1, some 1, .ground (FinSet.ofList ["a", "b"])⟩, ⟨2, some 2, .set (FinSet.ofList ["a", "z"])⟩,
    ⟨3, none, .call "union" [1, 2]⟩, ⟨4, some 4, .call "complement" [9]⟩]⟩

/-- Steps of which the third, the fourth and the sixth fail. -/
def mixedRequests : List Step :=
  [.registry, .replace 3 (.bool true), .evaluate 3, .run, .setOperands 4 [3], .evaluate 4]

/-- The call in line 3 was overwritten with a value of the wrong kind, and the one in line 4 is
still a call, with another operand. -/
theorem lines_after_mixedRequests :
    ofCommands uncheckedCommands = .ok uncheckedProgram ∧
      KeepsLines Catalog.standard uncheckedCommands
        ((fresh uncheckedProgram).after Catalog.standard mixedRequests) ∧
      AnswersValues Catalog.standard
        ((fresh uncheckedProgram).after Catalog.standard mixedRequests) ∧
      (((fresh uncheckedProgram).after Catalog.standard mixedRequests).step Catalog.standard
        (.valueAt 3 none)).2 = .ok (.value (some (.bool true))) := by
  have made : ofCommands uncheckedCommands = .ok uncheckedProgram := by decide +kernel
  obtain ⟨keeps, answers, -⟩ := lines_after made rfl rfl Catalog.standard mixedRequests
  have replaced : ((fresh uncheckedProgram).after Catalog.standard mixedRequests).program.slot? 3 =
      some ⟨3, none, .result "union" (.bool true)⟩ := by decide +kernel
  obtain ⟨value, held, answered⟩ := answers.held 3 none _ replaced rfl
  cases held
  exact ⟨made, keeps, answers, answered⟩

/-- An index of 4301 digits. -/
def longIndex : Int := Int.ofNat Text.digitBound

/-- It is far outside the program, but the question for its value does not say so. -/
theorem valueAt_longIndex :
    ofCommands uncheckedCommands = .ok uncheckedProgram ∧
      (uncheckedProgram.size : Int) < longIndex ∧
      ((fresh uncheckedProgram).step Catalog.standard (.valueAt longIndex none)).2 =
        .error .notSpelled ∧ ¬ IsUnresolved .notSpelled := by
  have made : ofCommands uncheckedCommands = .ok uncheckedProgram := by decide +kernel
  have outside : (uncheckedProgram.size : Int) < longIndex := by decide +kernel
  have long : Text.isSpelled longIndex = false := by decide +kernel
  have answers := answersValues (coherent_fresh (indexed_ofCommands made)) Catalog.standard
  refine ⟨made, outside, answers.long longIndex none (.inr outside) long, ?_⟩
  rintro ⟨d, impossible, -⟩
  cases impossible

end Session

end RelCalc
