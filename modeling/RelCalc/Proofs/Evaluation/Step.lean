/-
  `Proofs.Evaluation.Step`: what one step does to the lines of a program.

  Only a call can be overwritten: it gets other operands, or a result with its own index,
  name and source line.  Anything else stays as it is, and each slot stays in its place, so
  the index of every slot remains the number of its line.  Evaluating a call writes into its
  own slot: the calls that are left are those there were, less the one that was evaluated.
-/
import RelCalc.Program.Step
import RelCalc.Proofs.Evaluation.Run

set_option autoImplicit false

namespace RelCalc

open Outcome

namespace Program

variable {p next : Program} {catalog : Catalog} {slot : Slot} {content : Content} {value : Value}

/-! ## Slots -/

/-- The lines of a program are numbered up to its size. -/
theorem slot?_eq_none_iff {index : Int} :
    p.slot? index = none ↔ index < 1 ∨ (p.size : Int) < index := by
  unfold slot? size
  split
  · rw [List.getElem?_eq_none_iff]
    omega
  · simp only [true_iff]
    omega

theorem ground_of_first (first : p.slots[0]? = some slot) : p.ground = .ok slot.value? := by
  unfold ground
  cases hslots : p.slots with
  | nil => simp [hslots] at first
  | cons head rest =>
    rw [hslots] at first
    cases first
    rfl

theorem ground_eq_ok_iff {value? : Option Value} :
    p.ground = .ok value? ↔ ∃ slot, p.slots[0]? = some slot ∧ slot.value? = value? := by
  constructor
  · intro found
    cases first : p.slots[0]? with
    | none =>
      have empty : p.slots = [] := List.eq_nil_of_length_eq_zero (by simpa using first)
      rw [Program.ground, empty] at found
      cases found
    | some slot => exact ⟨slot, rfl, Except.ok.inj ((ground_of_first first).symm.trans found)⟩
  · rintro ⟨slot, first, rfl⟩
    exact ground_of_first first

/-! ## The lines of calls -/

/-- The indexes of the slots are the numbers of the lines. -/
theorem Indexed.map_index (indexed : p.Indexed) :
    p.slots.map Slot.index = List.range' 1 p.size := by
  refine List.ext_getElem? fun i => ?_
  rw [List.getElem?_map]
  by_cases bound : i < p.slots.length
  · rw [List.getElem?_eq_getElem bound, Option.map_some,
      indexed i _ (List.getElem?_eq_getElem bound),
      List.getElem?_range' (by simpa [size] using bound), Nat.add_comm, Nat.one_mul]
  · rw [List.getElem?_eq_none (by omega), List.getElem?_eq_none (by simpa [size] using bound),
      Option.map_none]

/-- The lines of calls are those whose slot holds one. -/
theorem mem_calls_iff (indexed : p.Indexed) {line : Nat} :
    line ∈ p.calls ↔ ∃ i slot, line = i + 1 ∧ p.slots[i]? = some slot ∧
      slot.content.isCall = true := by
  simp only [calls, List.mem_map, List.mem_filter]
  constructor
  · rintro ⟨slot, ⟨member, holdsCall⟩, rfl⟩
    obtain ⟨i, found⟩ := List.getElem?_of_mem member
    exact ⟨i, slot, indexed i slot found, found, holdsCall⟩
  · rintro ⟨i, slot, rfl, found, holdsCall⟩
    exact ⟨slot, ⟨List.mem_of_getElem? found, holdsCall⟩, indexed i slot found⟩

theorem exists_call_of_mem_calls (indexed : p.Indexed) {line : Nat} (called : line ∈ p.calls) :
    ∃ i sourceLine name operands, line = i + 1 ∧
      p.slots[i]? = some ⟨i + 1, sourceLine, .call name operands⟩ := by
  obtain ⟨i, ⟨index, sourceLine, content⟩, rfl, found, holdsCall⟩ :=
    (mem_calls_iff indexed).mp called
  obtain rfl : index = i + 1 := indexed i _ found
  cases content with
  | call name operands => exact ⟨i, sourceLine, name, operands, rfl, found⟩
  | ground | set | relation | result => cases holdsCall

/-- The lines of calls are listed in their order. -/
theorem Indexed.pairwise_calls (indexed : p.Indexed) : p.calls.Pairwise (· < ·) := by
  have increasing : (p.slots.map Slot.index).Pairwise (· < ·) := by
    rw [indexed.map_index]
    exact List.pairwise_lt_range'
  exact increasing.sublist (List.filter_sublist.map Slot.index)

/-- Two lists of lines in their order are equal if they have the same lines. -/
theorem eq_of_same_lines {lines others : List Nat} (ordered : lines.Pairwise (· < ·))
    (ordered' : others.Pairwise (· < ·)) (same : ∀ line, line ∈ lines ↔ line ∈ others) :
    lines = others := by
  have perm : lines.Perm others :=
    (List.perm_ext_iff_of_nodup ordered.nodup ordered'.nodup).mpr same
  exact perm.eq_of_pairwise (fun a b _ _ less more => by omega) ordered ordered'

/-- The lines of calls are found by going through all lines. -/
theorem Indexed.filter_calls (indexed : p.Indexed) :
    (List.range' 1 p.size).filter (fun line => decide (line ∈ p.calls)) = p.calls := by
  refine eq_of_same_lines (List.Pairwise.filter _ List.pairwise_lt_range') indexed.pairwise_calls
    fun line => ?_
  rw [List.mem_filter, decide_eq_true_eq, List.mem_range'_1, and_iff_right_iff_imp]
  intro member
  obtain ⟨i, slot, rfl, found, -⟩ := (mem_calls_iff indexed).mp member
  have bound := (List.getElem?_eq_some_iff.mp found).1
  rw [size]
  omega

/-! ## Replacing and evaluating -/

/-- The program that a change leaves, made or not. -/
def leftBy : Except Interruption Program → Program
  | .ok next => next
  | .error stopped => stopped.program

/-- Only a call is overwritten with a result. -/
theorem write_cases (indexed : p.Indexed) (index : Int) (value : Value) :
    (∃ fault, p.write index value = .error fault) ∨
      ∃ i line name operands, index = (i + 1 : Nat) ∧
        p.slots[i]? = some ⟨i + 1, line, .call name operands⟩ := by
  cases found : p.slot index with
  | error fault => exact .inl ⟨fault, by rw [write, found]; rfl⟩
  | ok slot =>
    obtain ⟨i, rfl, held⟩ := exists_of_slot? (slot_eq_ok_iff_slot?.mp found)
    obtain ⟨number, line, content⟩ := slot
    obtain rfl : number = i + 1 := indexed i _ held
    cases content with
    | call name operands => exact .inr ⟨i, line, name, operands, rfl, held⟩
    | ground | set | relation | result => exact .inl ⟨_, by rw [write, found]; rfl⟩

/-- A replacement fails before anything is written, or there is a call to replace. -/
theorem replace_cases (indexed : p.Indexed) (index : Int) (value : Value) :
    (∃ fault, p.replace index value = .error ⟨p, fault⟩) ∨
      ∃ i line name operands, index = (i + 1 : Nat) ∧
        p.slots[i]? = some ⟨i + 1, line, .call name operands⟩ := by
  refine (write_cases indexed index value).imp_left ?_
  rintro ⟨fault, failed⟩
  exact ⟨fault, by rw [replace, failed]; rfl⟩

/-- An evaluation fails before anything is written, or it replaces a call with its value. -/
theorem evaluate_cases (indexed : p.Indexed) (catalog : Catalog) (index : Int) :
    (∃ fault, p.evaluate catalog index = .error ⟨p, fault⟩) ∨
      ∃ i line name operands value, index = (i + 1 : Nat) ∧
        p.slots[i]? = some ⟨i + 1, line, .call name operands⟩ ∧
          p.compute catalog ⟨name, operands, line, i + 1⟩ = .ok value ∧
            p.evaluate catalog index = p.replace index value := by
  cases found : p.slot index with
  | error fault => exact .inl ⟨fault, by rw [evaluate, found]; rfl⟩
  | ok slot =>
    obtain ⟨i, rfl, held⟩ := exists_of_slot? (slot_eq_ok_iff_slot?.mp found)
    obtain ⟨number, line, content⟩ := slot
    obtain rfl : number = i + 1 := indexed i _ held
    cases content with
    | call name operands =>
      cases computed : p.compute catalog ⟨name, operands, line, i + 1⟩ with
      | error fault => exact .inl ⟨fault, evaluate_of_compute_error held computed⟩
      | ok value =>
        refine .inr ⟨i, line, name, operands, value, rfl, held, computed, ?_⟩
        rw [evaluate_of_call held, computed]
        rfl
    | result name value =>
      rw [evaluate, found]
      cases known : catalog.find? name with
      | none =>
        refine .inl ⟨.diagnostic ⟨.noSuchOperation name, line, some (i + 1 : Nat)⟩, ?_⟩
        simp only [attempt_ok, bind, Except.bind, known]
        rfl
      | some op =>
        refine .inl ⟨.noField "Result" "operands", ?_⟩
        simp only [attempt_ok, bind, Except.bind, known]
        rfl
    | ground | set | relation =>
      have called : ∃ fault, p.callAt (i + 1 : Nat) = .error fault := by
        rw [callAt, found]
        exact ⟨_, rfl⟩
      obtain ⟨fault, called⟩ := called
      refine .inl ⟨fault, ?_⟩
      rw [evaluate, found]
      show (p.attempt (p.callAt (i + 1 : Nat)) >>= fun call => p.evaluateCall catalog call) = _
      rw [called]
      rfl

/-- Whether it fails or not, a replacement leaves the program as it is or with one more result. -/
theorem leftBy_replace (indexed : p.Indexed) (index : Int) (value : Value) :
    leftBy (p.replace index value) = p ∨ ∃ i line name operands,
      p.slots[i]? = some ⟨i + 1, line, .call name operands⟩ ∧
        leftBy (p.replace index value) = ⟨p.slots.set i ⟨i + 1, line, .result name value⟩⟩ := by
  rcases replace_cases indexed index value with
    ⟨fault, failed⟩ | ⟨i, line, name, operands, rfl, found⟩
  · exact .inl (by rw [failed]; rfl)
  · refine .inr ⟨i, line, name, operands, found, ?_⟩
    rw [replace_of_call found]
    split <;> rfl

/-- So does an evaluation. -/
theorem leftBy_evaluate (indexed : p.Indexed) (catalog : Catalog) (index : Int) :
    leftBy (p.evaluate catalog index) = p ∨ ∃ i line name operands value,
      p.slots[i]? = some ⟨i + 1, line, .call name operands⟩ ∧
        leftBy (p.evaluate catalog index) = ⟨p.slots.set i ⟨i + 1, line, .result name value⟩⟩ := by
  rcases evaluate_cases indexed catalog index with
    ⟨fault, failed⟩ | ⟨i, line, name, operands, value, rfl, -, -, same⟩
  · exact .inl (by rw [failed]; rfl)
  · rw [same]
    exact (leftBy_replace indexed _ value).imp_right
      fun ⟨j, line, name, operands, found, written⟩ =>
        ⟨j, line, name, operands, value, found, written⟩

/-- Only a call is evaluated: it is computed, and the result written into its slot. -/
theorem evaluate_eq_ok_iff (indexed : p.Indexed) {index : Int} :
    p.evaluate catalog index = .ok next ↔ ∃ i line name operands value, index = (i + 1 : Nat) ∧
      p.slots[i]? = some ⟨i + 1, line, .call name operands⟩ ∧
        p.compute catalog ⟨name, operands, line, i + 1⟩ = .ok value ∧
          (operands.all Text.isSpelled && value.isSpelled) = true ∧
            next = ⟨p.slots.set i ⟨i + 1, line, .result name value⟩⟩ := by
  constructor
  · intro evaluated
    rcases evaluate_cases indexed catalog index with
      ⟨fault, failed⟩ | ⟨i, line, name, operands, value, rfl, found, computed, same⟩
    · cases evaluated.symm.trans failed
    · rw [same, replace_of_call found] at evaluated
      split at evaluated
      · rename_i spelled
        exact ⟨i, line, name, operands, value, rfl, found, computed, spelled,
          (Except.ok.inj evaluated).symm⟩
      · cases evaluated
  · rintro ⟨i, line, name, operands, value, rfl, found, computed, spelled, rfl⟩
    rw [evaluate_of_call found, computed]
    show p.replace (i + 1 : Nat) value = _
    rw [replace_of_call found, if_pos spelled]

/-- Evaluating a line takes it off the lines of calls, and puts none there. -/
theorem mem_calls_of_evaluate (indexed : p.Indexed) (indexed' : next.Indexed) {index : Nat}
    (evaluated : p.evaluate catalog index = .ok next) {line : Nat} :
    line ∈ next.calls ↔ line ∈ p.calls ∧ line ≠ index := by
  obtain ⟨i, sourceLine, name, operands, value, place, found, -, -, rfl⟩ :=
    (evaluate_eq_ok_iff indexed).mp evaluated
  obtain rfl : index = i + 1 := Int.natCast_inj.mp place
  have bound := (List.getElem?_eq_some_iff.mp found).1
  rw [mem_calls_iff indexed, mem_calls_iff indexed']
  constructor
  · rintro ⟨j, slot, rfl, held, holdsCall⟩
    by_cases same : i = j
    · subst same
      rw [List.getElem?_set_self bound] at held
      cases held
      cases holdsCall
    · rw [List.getElem?_set_ne same] at held
      exact ⟨⟨j, slot, rfl, held, holdsCall⟩, by omega⟩
  · rintro ⟨⟨j, slot, rfl, held, holdsCall⟩, different⟩
    have other : i ≠ j := by omega
    exact ⟨j, slot, rfl, by rw [List.getElem?_set_ne other, held], holdsCall⟩

/-! ## What the writing of results keeps -/

theorem change_fst (catalog : Catalog) (request : Step) (result : Except Interruption Program) :
    (change catalog request result).1 = leftBy result := by
  cases result <;> rfl

/-- The step that runs a program leaves what the run leaves. -/
theorem step_run_fst (p : Program) (catalog : Catalog) :
    (p.step catalog .run).1 = (runLines catalog p.calls p).1 := by
  rw [step, run]
  split
  · rename_i done runs
    rw [runs]
  · rename_i stopped fault runs
    rw [runs]

/-- What is true of a program remains true when a call is overwritten with a result. -/
structure KeptByResults (holds : Program → Prop) : Prop where
  indexed : ∀ p, holds p → p.Indexed
  write : ∀ (p : Program) (i : Nat) (line : Option Int) (name : String) (operands : List Int)
    (value : Value), holds p → p.slots[i]? = some ⟨i + 1, line, .call name operands⟩ →
      holds ⟨p.slots.set i ⟨i + 1, line, .result name value⟩⟩

namespace KeptByResults

variable {holds : Program → Prop}

theorem replace (kept : KeptByResults holds) (start : holds p) (index : Int) (value : Value) :
    holds (leftBy (p.replace index value)) := by
  rcases leftBy_replace (kept.indexed p start) index value with
    same | ⟨i, line, name, operands, found, same⟩
  · rwa [same]
  · rw [same]
    exact kept.write p i line name operands value start found

theorem evaluate (kept : KeptByResults holds) (start : holds p) (catalog : Catalog) (index : Int) :
    holds (leftBy (p.evaluate catalog index)) := by
  rcases leftBy_evaluate (kept.indexed p start) catalog index with
    same | ⟨i, line, name, operands, value, found, same⟩
  · rwa [same]
  · rw [same]
    exact kept.write p i line name operands value start found

/-- Then it remains true in a run, by induction on the lines, whether the run stops or not. -/
theorem runLines (kept : KeptByResults holds) (start : holds p) (catalog : Catalog)
    (lines : List Nat) : holds (runLines catalog lines p).1 := by
  induction lines generalizing p with
  | nil => exact start
  | cons index rest ih =>
    have first := kept.evaluate start catalog index
    cases evaluated : p.evaluate catalog index with
    | error stopped =>
      rw [evaluated] at first
      rw [runLines_cons_of_error evaluated]
      exact first
    | ok next =>
      rw [evaluated] at first
      rw [runLines_cons_of_ok evaluated]
      exact ih first

/-- And it remains true in any step, as far as the operands that a step gives to a call keep it. -/
theorem step (kept : KeptByResults holds) (start : holds p) (catalog : Catalog) (request : Step)
    (given : ∀ index operands next, request = .setOperands index operands →
      p.setOperands index operands = .ok next → holds next) :
    holds (p.step catalog request).1 := by
  cases request with
  | size | text | slots | slot | valueAt | registry | calls | ground | resolve => exact start
  | replace index value =>
    rw [Program.step, change_fst]
    exact kept.replace start index value
  | evaluate index =>
    rw [Program.step, change_fst]
    exact kept.evaluate start catalog index
  | setOperands index operands =>
    rw [Program.step, change_fst]
    cases changed : p.setOperands index operands with
    | error fault => exact start
    | ok next => exact given index operands next rfl changed
  | run =>
    rw [step_run_fst]
    exact kept.runLines start catalog p.calls

end KeptByResults

end Program

/-! ## One slot -/

/-- What can become of a slot.  A call can be given other operands, or be overwritten with a result
of its operation; anything else stays as it is. -/
inductive Slot.Becomes : Slot → Slot → Prop where
  | same (slot : Slot) : Becomes slot slot
  | call {index : Nat} {line : Option Int} {name : String} {operands others : List Int} :
      Becomes ⟨index, line, .call name operands⟩ ⟨index, line, .call name others⟩
  | result {index : Nat} {line : Option Int} {name : String} {operands : List Int} {value : Value} :
      Becomes ⟨index, line, .call name operands⟩ ⟨index, line, .result name value⟩

namespace Slot.Becomes

variable {slot next later : Slot}

/-- A slot keeps its index and its source line. -/
theorem index_eq (h : slot.Becomes next) : next.index = slot.index := by
  cases h <;> rfl

theorem line_eq (h : slot.Becomes next) : next.line = slot.line := by
  cases h <;> rfl

/-- A declaration or a result stays what it is. -/
theorem eq_of_value (h : slot.Becomes next) (settled : slot.content.isCall = false) :
    next = slot := by
  cases h with
  | same => rfl
  | call | result => cases settled

theorem trans (first : slot.Becomes next) (second : next.Becomes later) : slot.Becomes later := by
  cases first with
  | same => exact second
  | call =>
    cases second with
    | same | call => exact .call
    | result => exact .result
  | result =>
    cases second
    exact .result

end Slot.Becomes

/-! ## All slots -/

namespace Program

/-- What can become of a program: each slot stays in its place. -/
def Becomes (p q : Program) : Prop := List.Forall₂ Slot.Becomes p.slots q.slots

section Becomes

variable {p q r next : Program} {catalog : Catalog} {i : Nat} {slot held : Slot}

theorem Becomes.refl (p : Program) : p.Becomes p :=
  List.forall₂_same.mpr fun slot _ => .same slot

theorem Becomes.size_eq (h : p.Becomes q) : q.size = p.size := (List.Forall₂.length_eq h).symm

/-- The slot in a place comes from the one that was there. -/
theorem Becomes.exists_slot (h : p.Becomes q) (found : p.slots[i]? = some slot) :
    ∃ held, q.slots[i]? = some held ∧ slot.Becomes held :=
  exists_right_of_forall₂ h found

theorem Becomes.trans (first : p.Becomes q) (second : q.Becomes r) : p.Becomes r := by
  refine List.forall₂_iff_get.mpr ⟨first.size_eq.symm.trans second.size_eq.symm, ?_⟩
  intro i bound bound'
  obtain ⟨middle, hmiddle, becomes⟩ := first.exists_slot (List.getElem?_eq_getElem bound)
  obtain ⟨last, hlast, becomes'⟩ := second.exists_slot hmiddle
  rw [List.getElem?_eq_getElem bound'] at hlast
  cases hlast
  exact becomes.trans becomes'

/-- Overwriting one slot with what it can become. -/
theorem becomes_set (found : p.slots[i]? = some slot) (becomes : slot.Becomes held) :
    p.Becomes ⟨p.slots.set i held⟩ := by
  refine List.forall₂_iff_get.mpr ⟨(List.length_set).symm, fun j bound bound' => ?_⟩
  simp only [List.get_eq_getElem, List.getElem_set]
  split
  · rename_i same
    subst same
    rw [List.getElem?_eq_getElem bound] at found
    cases found
    exact becomes
  · exact .same _

/-- The index of every slot remains the number of its line. -/
theorem Becomes.indexed (h : p.Becomes q) (indexed : p.Indexed) : q.Indexed := by
  intro i held found
  obtain ⟨slot, hslot, becomes⟩ := exists_left_of_forall₂ h found
  rw [becomes.index_eq]
  exact indexed i slot hslot

/-- The ground set of a program stays what it is. -/
theorem Becomes.ground (h : p.Becomes q) {value : Value} (ground : p.ground = .ok (some value)) :
    q.ground = .ok (some value) := by
  obtain ⟨slot, found, held⟩ := ground_eq_ok_iff.mp ground
  obtain ⟨later, hlater, becomes⟩ := h.exists_slot found
  obtain rfl := becomes.eq_of_value (Slot.isCall_of_value? held)
  exact ground_eq_ok_iff.mpr ⟨later, hlater, held⟩

/-- Where every slot has the index of its line, results are what can become of calls. -/
theorem keptByResults_becomes (indexed : p.Indexed) : KeptByResults p.Becomes := by
  refine ⟨fun q becomes => becomes.indexed indexed, ?_⟩
  intro q i line name operands value becomes found
  exact becomes.trans (becomes_set found .result)

theorem becomes_evaluate (indexed : p.Indexed) (catalog : Catalog) (index : Int) :
    p.Becomes (leftBy (p.evaluate catalog index)) :=
  (keptByResults_becomes indexed).evaluate (.refl p) catalog index

theorem Indexed.evaluate (indexed : p.Indexed) {index : Int}
    (evaluated : p.evaluate catalog index = .ok next) : next.Indexed := by
  have becomes := becomes_evaluate indexed catalog index
  rw [evaluated] at becomes
  exact becomes.indexed indexed

theorem becomes_of_setOperands {index : Int} {operands : List Int}
    (changed : p.setOperands index operands = .ok next) : p.Becomes next := by
  obtain ⟨⟨number, line, content⟩, found, written⟩ := bind_eq_ok_iff.mp changed
  obtain ⟨i, rfl, hslot⟩ := exists_of_slot? (slot_eq_ok_iff_slot?.mp found)
  cases content with
  | call name old =>
    cases written
    exact becomes_set hslot .call
  | ground | set | relation | result => cases written

/-- One step, whether it succeeds or fails. -/
theorem becomes_step (indexed : p.Indexed) (catalog : Catalog) (request : Step) :
    p.Becomes (p.step catalog request).1 :=
  (keptByResults_becomes indexed).step (.refl p) catalog request
    fun _ _ _ _ changed => becomes_of_setOperands changed

end Becomes

end Program

end RelCalc
