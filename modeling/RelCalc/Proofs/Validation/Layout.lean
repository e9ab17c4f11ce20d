/-
  `Proofs.Validation.Layout`: the shape of a program.

  Seven of the ten rules are about shape.  Together they say one thing: a program
  is one declaration of the ground set, then declarations of sets and relations,
  then calls, and it has at least one of each.  Each rule is first read as a
  statement about the roles of the commands; the layout is then found by cutting
  the list at its first call.
-/
import Mathlib.Data.List.Perm.Subperm
import RelCalc.Proofs.Outcome
import RelCalc.Validation.Verdict

set_option autoImplicit false

namespace RelCalc.Validation

open Outcome

/-- One declaration of the ground set, then declarations, then calls. -/
structure Layout (ground : Command) (declarations calls : List Command) : Prop where
  ground_role : ground.role? = some .ground
  declared : declarations ≠ []
  declares : ∀ command ∈ declarations, command.role? = some .set ∨ command.role? = some .relation
  called : calls ≠ []
  call_role : ∀ command ∈ calls, command.role? = some .call

/-- Once there is a call, there are only calls. -/
def CallsLast (commands : List Command) : Prop :=
  commands.Pairwise fun a b => a.role? = some .call → b.role? = some .call

/-! ## What each rule says -/

section Rules

variable {commands : List Command}

@[simp] theorem violation_ne_ok (cause : Cause) : violation cause ≠ .ok () := nofun

@[simp] theorem violationOn_ne_ok (cause : Cause) (line : Option Int) (position : Nat) :
    violationOn cause line position ≠ .ok () := nofun

@[simp] theorem violationAt_ne_ok (cause : Cause) (position : Nat) :
    violationAt cause commands position ≠ .ok () := nofun

theorem checkSize_eq_ok_iff :
    checkSize commands = .ok () ↔ commands ≠ [] ∧ commands.length ≤ maxCommands := by
  unfold checkSize
  split
  · simp_all
  · split <;> simp_all

theorem length_positionsOf (role : Role) :
    (positionsOf role commands).length =
      commands.countP fun command => command.role? = some role := by
  have fst : (number commands).map Prod.fst = commands := List.zipIdx_map_fst 1 commands
  rw [positionsOf, List.length_map, ← List.countP_eq_length_filter]
  conv_rhs => rw [← fst, List.countP_map]
  rfl

theorem checkOneGround_eq_ok_iff :
    checkOneGround commands = .ok () ↔
      commands.countP (fun command => command.role? = some .ground) = 1 := by
  rw [← length_positionsOf]
  unfold checkOneGround
  split
  · rename_i none
    simp [none]
  · rename_i one
    simp [one]
  · rename_i many
    simp [many]

theorem find?_number_eq_none_iff (commands : List Command) (test : Command → Bool) :
    ((number commands).find? fun entry => test entry.1) = none ↔
      ∀ command ∈ commands, test command = false := by
  have fst : (number commands).map Prod.fst = commands := List.zipIdx_map_fst 1 commands
  rw [List.find?_eq_none]
  constructor
  · intro h command member
    rw [← fst, List.mem_map] at member
    obtain ⟨entry, hentry, rfl⟩ := member
    simpa using h entry hentry
  · intro h entry hentry
    have member : entry.1 ∈ commands := fst ▸ List.mem_map_of_mem hentry
    simp [h entry.1 member]

theorem checkKnownRoles_eq_ok_iff :
    checkKnownRoles commands = .ok () ↔ ∀ command ∈ commands, command.role? ≠ none := by
  have scan := find?_number_eq_none_iff commands fun command => decide (command.role? = none)
  unfold checkKnownRoles
  split
  · rename_i clean
    simpa using scan.mp clean
  · rename_i command position found
    simp only [violationAt_ne_ok, false_iff]
    intro known
    rw [scan.mpr (by simpa using known)] at found
    cases found

/-! ## Cutting a list at its first call -/

/-- A list without calls, or one that is cut at its first call. -/
theorem cut_at_first_call (commands : List Command) :
    (∀ command ∈ commands, command.role? ≠ some .call) ∨
      ∃ before first after, commands = before ++ first :: after ∧
        (∀ command ∈ before, command.role? ≠ some .call) ∧ first.role? = some .call := by
  cases found : commands.find? fun command => command.role? = some .call with
  | none =>
    left
    simpa using found
  | some first =>
    right
    obtain ⟨hfirst, before, after, rfl, hbefore⟩ := List.find?_eq_some_iff_append.mp found
    exact ⟨before, first, after, rfl, by simpa using hbefore, by simpa using hfirst⟩

theorem callsLast_iff_of_cut {before after : List Command} {first : Command}
    (hbefore : ∀ command ∈ before, command.role? ≠ some .call)
    (hfirst : first.role? = some .call) :
    CallsLast (before ++ first :: after) ↔ ∀ command ∈ after, command.role? = some .call := by
  rw [CallsLast, List.pairwise_append, List.pairwise_cons]
  constructor
  · rintro ⟨-, ⟨later, -⟩, -⟩ command member
    exact later command member hfirst
  · intro later
    refine ⟨?_, ⟨fun command member _ => later command member, ?_⟩, ?_⟩
    · refine List.pairwise_of_forall_mem_list fun a ha b _ hcall => ?_
      exact absurd hcall (hbefore a ha)
    · exact List.pairwise_of_forall_mem_list fun _ _ b hb _ => later b hb
    · intro a ha b _ hcall
      exact absurd hcall (hbefore a ha)

theorem positionsOf_eq_nil {role : Role} (h : ∀ command ∈ commands, command.role? ≠ some role) :
    positionsOf role commands = [] := by
  rw [← List.length_eq_zero_iff, length_positionsOf, List.countP_eq_zero]
  simpa using h

theorem positionsOf_cut {before : List Command} {first : Command} (after : List Command)
    (hbefore : ∀ command ∈ before, command.role? ≠ some .call)
    (hfirst : first.role? = some .call) :
    ∃ later, positionsOf .call (before ++ first :: after) = (before.length + 1) :: later := by
  have none := positionsOf_eq_nil hbefore
  simp only [positionsOf, number, List.zipIdx_append, List.zipIdx_cons, List.filter_append,
    List.map_append] at none ⊢
  rw [none, List.filter_cons_of_pos (by simpa using hfirst), Nat.add_comm before.length 1]
  exact ⟨_, rfl⟩

/-- The numbered commands behind a place are those behind it in the list. -/
theorem mem_number_cut_iff {before after : List Command} {first command : Command} :
    (∃ position, (command, position) ∈ number (before ++ first :: after) ∧
        before.length + 1 < position) ↔ command ∈ after := by
  simp only [number, List.mk_mem_zipIdx_iff_le_and_getElem?_sub]
  constructor
  · intro h
    obtain ⟨position, ⟨-, found⟩, behind⟩ := h
    rw [List.getElem?_append_right (by omega),
      show position - 1 - before.length = (position - before.length - 2) + 1 by omega,
      List.getElem?_cons_succ] at found
    exact List.mem_of_getElem? found
  · intro member
    obtain ⟨i, found⟩ := List.getElem?_of_mem member
    refine ⟨before.length + 2 + i, ⟨by omega, ?_⟩, by omega⟩
    rw [List.getElem?_append_right (by omega),
      show before.length + 2 + i - 1 - before.length = i + 1 by omega, List.getElem?_cons_succ]
    exact found

theorem find?_late_eq_none_iff (before : List Command) (first : Command) (after : List Command) :
    ((number (before ++ first :: after)).find? fun entry =>
        before.length + 1 < entry.2 && decide (entry.1.role? ≠ some .call)) = none ↔
      ∀ command ∈ after, command.role? = some .call := by
  rw [List.find?_eq_none]
  constructor
  · intro h command member
    obtain ⟨position, hnumber, behind⟩ := mem_number_cut_iff.mpr member
    simpa [behind] using h (command, position) hnumber
  · rintro h ⟨command, position⟩ hnumber
    simp only [Bool.and_eq_true, decide_eq_true_eq, not_and, not_not]
    intro behind
    exact h command (mem_number_cut_iff.mp ⟨position, hnumber, behind⟩)

theorem checkLateDeclarations_eq_ok_iff :
    checkLateDeclarations commands = .ok () ↔ CallsLast commands := by
  rcases cut_at_first_call commands with none | ⟨before, first, after, rfl, hbefore, hfirst⟩
  · simp only [checkLateDeclarations, positionsOf_eq_nil none, true_iff]
    exact List.pairwise_of_forall_mem_list fun a ha _ _ hcall => absurd hcall (none a ha)
  · obtain ⟨later, positions⟩ := positionsOf_cut after hbefore hfirst
    rw [callsLast_iff_of_cut hbefore hfirst, ← find?_late_eq_none_iff before first after]
    simp only [checkLateDeclarations, positions]
    split
    · rename_i clean
      simp only [clean]
    · rename_i command position found
      simp only [found, reduceCtorEq, iff_false]
      split <;> simp

theorem checkOrder_eq_ok_iff :
    checkOrder commands = .ok () ↔
      (commands.head?.bind Command.role?) = some .ground ∧ CallsLast commands := by
  cases commands with
  | nil => simp [checkOrder]
  | cons first rest =>
    simp only [checkOrder, List.head?_cons, Option.bind_some]
    by_cases role : first.role? = some .ground
    · simp [role, checkLateDeclarations_eq_ok_iff]
    · simp [role]

theorem checkHasCall_eq_ok_iff :
    checkHasCall commands = .ok () ↔ ∃ command ∈ commands, command.role? = some .call := by
  unfold checkHasCall
  split <;> simp_all

theorem declares_iff {role : Option Role} :
    declares role = true ↔ role = some .set ∨ role = some .relation := by
  simp [declares]

theorem checkHasDeclaration_eq_ok_iff :
    checkHasDeclaration commands = .ok () ↔
      ∃ command ∈ commands, command.role? = some .set ∨ command.role? = some .relation := by
  unfold checkHasDeclaration
  split <;> simp_all [declares_iff]

/-- Two different roles are enough for the last rule about shape. -/
theorem checkTwoRoles_of_mem {a b : Command} (ha : a ∈ commands) (hb : b ∈ commands)
    (different : a.role? ≠ b.role?) : checkTwoRoles commands = .ok () := by
  have nodup : [a.role?, b.role?].Nodup := by simpa using different
  have subset : [a.role?, b.role?] ⊆ (FinSet.ofList (commands.map Command.role?)).toList := by
    intro role hrole
    rw [← FinSet.mem_def, FinSet.mem_ofList]
    simp only [List.mem_cons, List.not_mem_nil, or_false] at hrole
    rcases hrole with rfl | rfl
    · exact List.mem_map_of_mem ha
    · exact List.mem_map_of_mem hb
  have two : 2 ≤ (FinSet.ofList (commands.map Command.role?)).size :=
    (List.subperm_of_subset nodup subset).length_le
  rw [checkTwoRoles, if_neg (by omega)]

end Rules

/-! ## The layout -/

/-- All rules about shape are kept. -/
structure KeepsShape (commands : List Command) : Prop where
  size : checkSize commands = .ok ()
  one_ground : checkOneGround commands = .ok ()
  known_roles : checkKnownRoles commands = .ok ()
  order : checkOrder commands = .ok ()
  has_call : checkHasCall commands = .ok ()
  has_declaration : checkHasDeclaration commands = .ok ()
  two_roles : checkTwoRoles commands = .ok ()

/-- The first command declares the ground set, and no other command does. -/
theorem KeepsShape.cons_ground {commands : List Command} (h : KeepsShape commands) :
    ∃ ground rest, commands = ground :: rest ∧ ground.role? = some .ground ∧
      ∀ command ∈ rest, command.role? ≠ some .ground := by
  obtain ⟨hfirst, -⟩ := checkOrder_eq_ok_iff.mp h.order
  have once := checkOneGround_eq_ok_iff.mp h.one_ground
  cases commands with
  | nil => simp at hfirst
  | cons ground rest =>
    have role : ground.role? = some .ground := by simpa using hfirst
    rw [List.countP_cons_of_pos (by simpa using role), Nat.add_eq_right,
      List.countP_eq_zero] at once
    exact ⟨ground, rest, rfl, role, by simpa using once⟩

/-- A list that keeps the rules about shape has the layout of a program: everything before the
first call declares, everything from it on calls. -/
theorem KeepsShape.layout {commands : List Command} (h : KeepsShape commands) :
    ∃ ground declarations calls, commands = ground :: (declarations ++ calls) ∧
      Layout ground declarations calls := by
  obtain ⟨ground, rest, rfl, hground, hrest⟩ := h.cons_ground
  have known := checkKnownRoles_eq_ok_iff.mp h.known_roles
  have last := (checkOrder_eq_ok_iff.mp h.order).2
  obtain ⟨call, hcall, callRole⟩ := checkHasCall_eq_ok_iff.mp h.has_call
  obtain ⟨declaration, hdeclaration, declares⟩ := checkHasDeclaration_eq_ok_iff.mp h.has_declaration
  have different {command : Command} {role : Role} (other : role ≠ .ground)
      (member : command ∈ ground :: rest) (hrole : command.role? = some role) :
      command ∈ rest := by
    rcases List.mem_cons.mp member with rfl | inside
    · rw [hground] at hrole
      exact absurd (Option.some.inj hrole).symm other
    · exact inside
  rcases cut_at_first_call rest with none | ⟨declarations, first, after, rfl, hbefore, hfirst⟩
  · exact absurd callRole (none call (different (by decide) hcall callRole))
  · have after_calls : ∀ command ∈ after, command.role? = some .call :=
      (callsLast_iff_of_cut hbefore hfirst).mp (List.pairwise_cons.mp last).2
    have calls : ∀ command ∈ first :: after, command.role? = some .call :=
      List.forall_mem_cons.mpr ⟨hfirst, after_calls⟩
    refine ⟨ground, declarations, first :: after, rfl, hground, ?_, ?_, by simp, calls⟩
    · rintro rfl
      have member : declaration ∈ first :: after := by
        rcases declares with hset | hrelation
        · exact different (by decide) hdeclaration hset
        · exact different (by decide) hdeclaration hrelation
      simp [calls declaration member] at declares
    · intro command member
      have hknown := known command (by simp [member])
      have notGround := hrest command (by simp [member])
      have notCall := hbefore command member
      cases role : command.role? with
      | none => exact absurd role hknown
      | some found => cases found <;> simp_all

/-- A list of at most a thousand commands with the layout of a program keeps the rules about
shape. -/
theorem Layout.keepsShape {ground : Command} {declarations calls : List Command}
    (layout : Layout ground declarations calls)
    (short : (ground :: (declarations ++ calls)).length ≤ maxCommands) :
    KeepsShape (ground :: (declarations ++ calls)) := by
  obtain ⟨declaration, hdeclaration⟩ := List.exists_mem_of_ne_nil _ layout.declared
  obtain ⟨call, hcall⟩ := List.exists_mem_of_ne_nil _ layout.called
  have declared : ∀ command ∈ declarations,
      command.role? ≠ some .ground ∧ command.role? ≠ some .call ∧ command.role? ≠ none := by
    intro command member
    rcases layout.declares command member with role | role <;> simp [role]
  have called : ∀ command ∈ calls, command.role? = some .call := layout.call_role
  have others : ∀ command ∈ declarations ++ calls, command.role? ≠ some .ground := by
    intro command member
    rcases List.mem_append.mp member with inside | inside
    · exact (declared command inside).1
    · simp [called command inside]
  have known : ∀ command ∈ ground :: (declarations ++ calls), command.role? ≠ none := by
    intro command member
    rcases List.mem_cons.mp member with rfl | inside
    · simp [layout.ground_role]
    · rcases List.mem_append.mp inside with hdeclared | hcalled
      · exact (declared command hdeclared).2.2
      · simp [called command hcalled]
  have last : CallsLast (ground :: (declarations ++ calls)) := by
    rw [CallsLast, List.pairwise_cons, List.pairwise_append]
    refine ⟨fun _ _ hrole => ?_, ?_, ?_, fun a ha b hb _ => called b hb⟩
    · simp [layout.ground_role] at hrole
    · exact List.pairwise_of_forall_mem_list fun a ha _ _ hrole =>
        absurd hrole (declared a ha).2.1
    · exact List.pairwise_of_forall_mem_list fun _ _ b hb _ => called b hb
  exact {
    size := checkSize_eq_ok_iff.mpr ⟨by simp, short⟩
    one_ground := by
      rw [checkOneGround_eq_ok_iff, List.countP_cons_of_pos (by simp [layout.ground_role]),
        Nat.add_eq_right, List.countP_eq_zero]
      simpa using others
    known_roles := checkKnownRoles_eq_ok_iff.mpr known
    order := checkOrder_eq_ok_iff.mpr ⟨by simp [layout.ground_role], last⟩
    has_call := checkHasCall_eq_ok_iff.mpr ⟨call, by simp [hcall], called call hcall⟩
    has_declaration := checkHasDeclaration_eq_ok_iff.mpr
      ⟨declaration, by simp [hdeclaration], layout.declares declaration hdeclaration⟩
    two_roles := checkTwoRoles_of_mem (a := ground) (b := call) (by simp) (by simp [hcall])
      (by simp [layout.ground_role, called call hcall]) }

end RelCalc.Validation
