/-
  `Proofs.Validation.FirstOffender`: the first entry of a list that has a property.

  The checks go through their lists from the front and stop at the first entry that
  does not pass.  What they stop at is stated here without them: an entry in its place
  that has a property, while no entry before it has.  Each search of the checks, the
  one for a command, for an element of the ground set, for a repeated entry, finds the
  first entry of this sort.
-/
import RelCalc.Proofs.Validation.Elements

set_option autoImplicit false

namespace RelCalc.Validation

/-- An entry that has a property in its place, while no entry before it has. -/
structure FirstAt {α : Type} (P : Nat → α → Prop) (entries : List α) (i : Nat) (entry : α) :
    Prop where
  found : entries[i]? = some entry
  holds : P i entry
  least : ∀ (j : Nat) (other : α), j < i → entries[j]? = some other → ¬ P j other

section FirstAt

variable {α : Type} {P Q : Nat → α → Prop} {entries rest : List α} {entry found : α} {i : Nat}

theorem FirstAt.head (holds : P 0 entry) : FirstAt P (entry :: rest) 0 entry :=
  ⟨rfl, holds, fun _ _ before => absurd before (Nat.not_lt_zero _)⟩

theorem FirstAt.tail (passes : ¬ P 0 entry) (h : FirstAt (fun j => P (j + 1)) rest i found) :
    FirstAt P (entry :: rest) (i + 1) found := by
  refine ⟨h.found, h.holds, fun j other before hother => ?_⟩
  cases j with
  | zero =>
    cases hother
    exact passes
  | succ j => exact h.least j other (Nat.lt_of_succ_lt_succ before) hother

theorem FirstAt.mem (h : FirstAt P entries i entry) : entry ∈ entries :=
  List.mem_of_getElem? h.found

/-- The same entry comes first for a property that is the same on the entries. -/
theorem FirstAt.congr (same : ∀ (j : Nat) (other : α), entries[j]? = some other →
    (P j other ↔ Q j other)) (h : FirstAt P entries i entry) : FirstAt Q entries i entry :=
  ⟨h.found, (same i entry h.found).mp h.holds, fun j other before hother holds =>
    h.least j other before hother ((same j other hother).mpr holds)⟩

/-- There is one first entry at most. -/
theorem FirstAt.unique {j : Nat} (h : FirstAt P entries i entry) (h' : FirstAt P entries j found) :
    i = j ∧ entry = found := by
  rcases Nat.lt_trichotomy i j with before | rfl | after
  · exact absurd h.holds (h'.least i entry before h.found)
  · exact ⟨rfl, Option.some.inj (h.found.symm.trans h'.found)⟩
  · exact absurd h'.holds (h.least j found after h'.found)

/-- What a search finds is the first entry that passes its test. -/
theorem exists_firstAt_of_find? {test : α → Bool} (h : entries.find? test = some entry) :
    ∃ i, FirstAt (fun _ other => test other = true) entries i entry := by
  induction entries with
  | nil => cases h
  | cons first rest ih =>
    by_cases passes : test first = true
    · rw [List.find?_cons_of_pos passes] at h
      cases h
      exact ⟨0, .head passes⟩
    · rw [List.find?_cons_of_neg passes] at h
      obtain ⟨i, later⟩ := ih h
      exact ⟨i + 1, .tail passes later⟩

/-- The repeated entry that is found is the first that comes again. -/
theorem exists_firstAt_of_firstRepeated? [DecidableEq α] (h : firstRepeated? entries = some entry) :
    ∃ i, FirstAt (fun j other => other ∈ entries.drop (j + 1)) entries i entry := by
  induction entries with
  | nil => cases h
  | cons first rest ih =>
    by_cases again : first ∈ rest
    · rw [firstRepeated?, if_pos again] at h
      cases h
      exact ⟨0, .head again⟩
    · rw [firstRepeated?, if_neg again] at h
      obtain ⟨i, later⟩ := ih h
      exact ⟨i + 1, .tail again later⟩

end FirstAt

/-! ## Commands in their places -/

section Numbered

variable {commands : List Command} {command : Command} {i : Nat}

/-- The numbered command that is found is the first that passes the test. -/
theorem exists_firstAt_of_find?_number {test : Command × Nat → Bool} {position : Nat}
    (h : (number commands).find? test = some (command, position)) : ∃ i, position = i + 1 ∧
      FirstAt (fun j other => test (other, j + 1) = true) commands i command := by
  obtain ⟨i, first⟩ := exists_firstAt_of_find? h
  have numbered (j : Nat) : (number commands)[j]? = commands[j]?.map (·, j + 1) := by
    rw [number, List.getElem?_zipIdx, Nat.add_comm 1 j]
  have found := first.found
  rw [numbered, Option.map_eq_some_iff] at found
  obtain ⟨other, hother, same⟩ := found
  cases same
  refine ⟨i, rfl, hother, first.holds, fun j other before hother => ?_⟩
  exact first.least j (other, j + 1) before (by rw [numbered, hother]; rfl)

/-- What a check of each command reports is the first one with a defect. -/
theorem exists_firstAt_of_checkEach {defect? : Command → Option Cause} {offset : Nat}
    {fault : Fault} (h : checkEach defect? (commands.zipIdx offset) = .error fault) :
    ∃ i command cause,
      FirstAt (fun _ other => defect? other ≠ none) commands i command ∧
        defect? command = some cause ∧
          fault = .diagnostic ⟨cause, command.line, some (offset + i : Nat)⟩ := by
  induction commands generalizing offset with
  | nil => cases h
  | cons first rest ih =>
    rw [List.zipIdx_cons] at h
    cases defect : defect? first with
    | some cause =>
      simp only [checkEach, defect] at h
      exact ⟨0, first, cause, .head (by simp [defect]), defect, (Except.error.inj h).symm⟩
    | none =>
      simp only [checkEach, defect] at h
      obtain ⟨i, command, cause, later, hcause, rfl⟩ := ih h
      refine ⟨i + 1, command, cause, .tail (by simp [defect]) later, hcause, ?_⟩
      rw [Nat.add_right_comm, Nat.add_assoc]

/-- The positions of a role are those of its commands. -/
theorem mem_positionsOf_iff {role : Role} {position : Nat} :
    position ∈ positionsOf role commands ↔ ∃ i command, position = i + 1 ∧
      commands[i]? = some command ∧ command.role? = some role := by
  simp only [positionsOf, number, List.mem_map, List.mem_filter, Prod.exists,
    List.mk_mem_zipIdx_iff_le_and_getElem?_sub, decide_eq_true_eq]
  constructor
  · rintro ⟨command, n, ⟨⟨positive, found⟩, hrole⟩, rfl⟩
    exact ⟨n - 1, command, by omega, found, hrole⟩
  · rintro ⟨i, command, rfl, found, hrole⟩
    exact ⟨command, i + 1, ⟨⟨by omega, found⟩, hrole⟩, rfl⟩

/-- The positions of a role are listed in their order. -/
theorem pairwise_positionsOf (role : Role) (commands : List Command) :
    (positionsOf role commands).Pairwise (· < ·) := by
  have increasing : ((number commands).map Prod.snd).Pairwise (· < ·) := by
    rw [number, List.zipIdx_map_snd]
    exact List.pairwise_lt_range'
  exact increasing.sublist (List.filter_sublist.map Prod.snd)

/-- The first position of a role is that of its first command. -/
theorem exists_firstAt_of_positionsOf {role : Role} {position : Nat} {later : List Nat}
    (h : positionsOf role commands = position :: later) : ∃ i command, position = i + 1 ∧
      FirstAt (fun _ other => other.role? = some role) commands i command := by
  have ordered := pairwise_positionsOf role commands
  rw [h, List.pairwise_cons] at ordered
  obtain ⟨i, command, rfl, found, hrole⟩ :=
    mem_positionsOf_iff.mp (h ▸ List.mem_cons_self : position ∈ positionsOf role commands)
  refine ⟨i, command, rfl, found, hrole, fun j other before hother holds => ?_⟩
  have member : j + 1 ∈ (i + 1) :: later :=
    h ▸ mem_positionsOf_iff.mpr ⟨j, other, rfl, hother, holds⟩
  rcases List.mem_cons.mp member with same | behind
  · omega
  · have after := ordered.1 _ behind
    omega

/-- The second position of a role is that of the first of its commands that has one before it. -/
theorem exists_firstAt_of_positionsOf_two {role : Role} {first second : Nat} {later : List Nat}
    (h : positionsOf role commands = first :: second :: later) : ∃ i command, second = i + 1 ∧
      FirstAt (fun k other => other.role? = some role ∧
        ∃ j earlier, j < k ∧ commands[j]? = some earlier ∧ earlier.role? = some role)
          commands i command := by
  have ordered := pairwise_positionsOf role commands
  rw [h, List.pairwise_cons, List.pairwise_cons] at ordered
  obtain ⟨behindFirst, behindSecond, -⟩ := ordered
  have between := behindFirst second List.mem_cons_self
  have place {position : Nat} (member : position ∈ first :: second :: later) :=
    mem_positionsOf_iff.mp (h ▸ member)
  obtain ⟨i, command, rfl, found, hrole⟩ := place (List.mem_cons_of_mem _ List.mem_cons_self)
  obtain ⟨j, earlier, rfl, hearlier, hrole'⟩ := place List.mem_cons_self
  refine ⟨i, command, rfl, found, ⟨hrole, j, earlier, by omega, hearlier, hrole'⟩, ?_⟩
  rintro m other before hother ⟨holds, n, another, less, hanother, holds'⟩
  -- Two positions before the second one would both be the first.
  have isFirst {k : Nat} (inside : k < i) {entry : Command} (hentry : commands[k]? = some entry)
      (role' : entry.role? = some role) : k = j := by
    have member : k + 1 ∈ (j + 1) :: (i + 1) :: later :=
      h ▸ mem_positionsOf_iff.mpr ⟨k, entry, rfl, hentry, role'⟩
    rcases List.mem_cons.mp member with same | member
    · omega
    · rcases List.mem_cons.mp member with same | behind
      · omega
      · have after := behindSecond _ behind
        omega
  have same := isFirst before hother holds
  have same' := isFirst (by omega) hanother holds'
  omega

end Numbered

/-! ## Elements of the ground set -/

/-- Something is wrong with an element that stands behind the given ones. -/
def HasDefect (catalog : Catalog) (before : List Element) (element : Element) :
    ElementDefect → Prop
  | .tooLong => 30 < element.length
  | .notLetters => ¬ (1 ≤ element.length ∧ ∀ c ∈ element.toList, c.isAlpha = true)
  | .boolLiteral => element = "true" ∨ element = "false"
  | .operationName => element ∈ catalog.names
  | .declaredTwice => element ∈ before

/-- What can be wrong with an element, in the order in which it is looked for. -/
def defectOrder : List ElementDefect :=
  [.tooLong, .notLetters, .boolLiteral, .operationName, .declaredTwice]

section Ground

variable {catalog : Catalog} {before elements : List Element} {element : Element}
  {defect : ElementDefect}

/-- The defect that is found is the first one in the order. -/
theorem exists_firstAt_of_elementDefect? (h : elementDefect? catalog before element = some defect) :
    ∃ k, FirstAt (fun _ => HasDefect catalog before element) defectOrder k defect := by
  have long : maxElementLength < element.toList.length ↔
      HasDefect catalog before element .tooLong := by
    rw [String.length_toList]
    exact Iff.rfl
  have letters : (!isLetters element) = true ↔ HasDefect catalog before element .notLetters := by
    rw [Bool.not_eq_true', Bool.eq_false_iff, ne_eq, isLetters_iff]
    exact Iff.rfl
  have literal : element ∈ boolLiterals ↔ HasDefect catalog before element .boolLiteral := by
    simp [boolLiterals, HasDefect]
  unfold elementDefect? at h
  split at h
  · rename_i isLong
    cases h
    exact ⟨0, .head (long.mp isLong)⟩
  rename_i short
  rw [long] at short
  split at h
  · rename_i foreign
    cases h
    exact ⟨1, .tail short (.head (letters.mp foreign))⟩
  rename_i proper
  rw [letters] at proper
  split at h
  · rename_i isLiteral
    cases h
    exact ⟨2, .tail short (.tail proper (.head (literal.mp isLiteral)))⟩
  rename_i other
  rw [literal] at other
  split at h
  · rename_i named
    cases h
    exact ⟨3, .tail short (.tail proper (.tail other (.head named)))⟩
  rename_i unnamed
  split at h
  · rename_i again
    cases h
    exact ⟨4, .tail short (.tail proper (.tail other (.tail unnamed (.head again))))⟩
  · cases h

/-- An element has a defect when one is found. -/
theorem elementDefect?_ne_none_iff : elementDefect? catalog before element ≠ none ↔
    ∃ defect, HasDefect catalog before element defect := by
  constructor
  · intro h
    obtain ⟨defect, hdefect⟩ := Option.ne_none_iff_exists'.mp h
    obtain ⟨k, first⟩ := exists_firstAt_of_elementDefect? hdefect
    exact ⟨defect, first.holds⟩
  · rintro ⟨defect, hdefect⟩ clean
    obtain ⟨proper, fresh⟩ := elementDefect?_eq_none_iff.mp clean
    cases defect with
    | tooLong => exact absurd hdefect (Nat.not_lt.mpr proper.short)
    | notLetters => exact hdefect ⟨proper.nonempty, proper.letters⟩
    | boolLiteral => exact hdefect.elim proper.not_true proper.not_false
    | operationName => exact proper.not_operation hdefect
    | declaredTwice => exact fresh hdefect

/-- The element that is reported is the first one with a defect. -/
theorem exists_firstAt_of_firstDefect?
    (h : firstDefect? catalog before elements = some (element, defect)) : ∃ i,
      FirstAt (fun j other => ∃ defect, HasDefect catalog (before ++ elements.take j) other defect)
        elements i element ∧
      elementDefect? catalog (before ++ elements.take i) element = some defect := by
  induction elements generalizing before with
  | nil => cases h
  | cons first rest ih =>
    cases found : elementDefect? catalog before first with
    | some defect' =>
      simp only [firstDefect?, found] at h
      cases h
      refine ⟨0, .head (elementDefect?_ne_none_iff.mp ?_), ?_⟩ <;> simp [found]
    | none =>
      simp only [firstDefect?, found] at h
      obtain ⟨i, later, hdefect⟩ := ih h
      have moved (j : Nat) :
          before ++ [first] ++ rest.take j = before ++ (first :: rest).take (j + 1) := by
        rw [List.take_succ_cons, List.append_assoc]
        rfl
      simp only [moved] at later hdefect
      refine ⟨i + 1, .tail ?_ later, hdefect⟩
      rw [← elementDefect?_ne_none_iff]
      simp [found]

end Ground

end RelCalc.Validation
