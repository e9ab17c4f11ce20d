/-
  `Proofs.Validation.Elements`: what ground sets and declarations may consist of.

  The check of the ground set goes through its elements with the list of those
  seen so far; it passes exactly when the elements are proper and pairwise
  different; as proper elements are short, there are not too many of them to be
  counted.  A declaration passes when it stays inside the ground set and does
  not repeat itself, a relation being taken pair by pair.
-/
import Mathlib.Data.Fintype.BigOperators
import RelCalc.Proofs.Validation.Layout

set_option autoImplicit false

namespace RelCalc.Validation

/-- A proper element of a ground set: 1 to 30 ASCII letters that mean nothing else. -/
structure IsElement (catalog : Catalog) (element : Element) : Prop where
  nonempty : 1 ≤ element.length
  short : element.length ≤ 30
  letters : ∀ c ∈ element.toList, c.isAlpha = true
  not_true : element ≠ "true"
  not_false : element ≠ "false"
  not_operation : element ∉ catalog.names

/-- A declaration over a ground set: a set of different elements of it, or a relation of
different pairs of them. -/
inductive IsDeclaration (ground : List Element) (command : Command) : Prop where
  | set (role : command.role? = some .set) (inside : ∀ element ∈ command.args, element ∈ ground)
      (distinct : command.args.Nodup)
  | relation (pairs : List (Element × Element)) (role : command.role? = some .relation)
      (inside : ∀ element ∈ command.args, element ∈ ground)
      (paired : command.args = Relation.flatten pairs) (distinct : pairs.Nodup)

/-! ## The ground set -/

section Ground

variable {catalog : Catalog}

theorem isLetters_iff {word : String} :
    isLetters word = true ↔ 1 ≤ word.length ∧ ∀ c ∈ word.toList, c.isAlpha = true := by
  have nonempty : word.toList ≠ [] ↔ 1 ≤ word.length := by
    rw [← String.length_toList, ← List.length_pos_iff]
    exact Iff.rfl
  simp [isLetters, ← nonempty]

theorem elementDefect?_eq_none_iff {before : List Element} {element : Element} :
    elementDefect? catalog before element = none ↔
      IsElement catalog element ∧ element ∉ before := by
  have long : maxElementLength < element.toList.length ↔ ¬ element.length ≤ 30 := by
    rw [String.length_toList, Nat.not_le]
    exact Iff.rfl
  unfold elementDefect?
  constructor
  · intro h
    split at h
    · cases h
    rename_i short
    split at h
    · cases h
    rename_i letters
    split at h
    · cases h
    rename_i literal
    split at h
    · cases h
    rename_i operation
    split at h
    · cases h
    rename_i fresh
    simp only [long, not_not, Bool.not_eq_true', Bool.not_eq_false, isLetters_iff, boolLiterals,
      List.mem_cons, List.not_mem_nil, or_false, not_or] at short letters literal
    exact ⟨⟨letters.1, short, letters.2, literal.1, literal.2, operation⟩, fresh⟩
  · rintro ⟨⟨nonempty, short, letters, notTrue, notFalse, notOperation⟩, fresh⟩
    have hletters : isLetters element = true := isLetters_iff.mpr ⟨nonempty, letters⟩
    have hliteral : element ∉ boolLiterals := by simp [boolLiterals, notTrue, notFalse]
    rw [if_neg (by simpa [long] using short), if_neg (by simp [hletters]), if_neg hliteral,
      if_neg notOperation, if_neg fresh]

theorem firstDefect?_eq_none_iff {before elements : List Element} :
    firstDefect? catalog before elements = none ↔
      (∀ element ∈ elements, IsElement catalog element ∧ element ∉ before) ∧ elements.Nodup := by
  induction elements generalizing before with
  | nil => simp [firstDefect?]
  | cons element rest ih =>
    rw [List.forall_mem_cons, List.nodup_cons, ← elementDefect?_eq_none_iff]
    cases defect : elementDefect? catalog before element with
    | some found => simp [firstDefect?, defect]
    | none =>
      simp only [firstDefect?, defect, ih, List.mem_append, List.mem_singleton, not_or, true_and]
      constructor
      · intro h
        obtain ⟨each, distinct⟩ := h
        exact ⟨fun x hx => ⟨(each x hx).1, (each x hx).2.1⟩,
          fun inside => (each element inside).2.2 rfl, distinct⟩
      · intro h
        obtain ⟨each, fresh, distinct⟩ := h
        refine ⟨fun x hx => ⟨(each x hx).1, (each x hx).2, ?_⟩, distinct⟩
        rintro rfl
        exact fresh hx

theorem checkGroundElements_cons_eq_ok_iff {ground : Command} {rest : List Command} :
    checkGroundElements catalog (ground :: rest) = .ok () ↔
      (∀ element ∈ ground.args, IsElement catalog element) ∧ ground.args.Nodup := by
  have defects : firstDefect? catalog [] ground.args = none ↔
      (∀ element ∈ ground.args, IsElement catalog element) ∧ ground.args.Nodup := by
    rw [firstDefect?_eq_none_iff]
    simp
  rw [← defects]
  simp only [checkGroundElements]
  split
  · rename_i clean
    simp only [clean]
  · rename_i element defect found
    simp [found]

/-- The code points of the letters of a word, in the 30 places that an element has for them. -/
def letterCodes (word : Element) : Fin 30 → Option (Fin UInt32.size) :=
  fun place => word.toList[place.val]?.map fun letter => letter.val.toFin

/-- A word of at most 30 letters is known by the code points of its letters. -/
theorem eq_of_letterCodes_eq {word other : Element} (short : word.length ≤ 30)
    (short' : other.length ≤ 30) (same : letterCodes word = letterCodes other) : word = other := by
  refine String.toList_injective (List.ext_getElem? fun i => ?_)
  rw [← String.length_toList] at short short'
  by_cases place : i < 30
  · refine Option.map_injective ?_ (congrFun same ⟨i, place⟩)
    exact fun c d equal => Char.ext (UInt32.toFin_inj.mp equal)
  · rw [List.getElem?_eq_none (by omega), List.getElem?_eq_none (by omega)]

/-- There are not so many words of at most 30 letters that their number could not be written. -/
theorem length_lt_of_short {elements : List Element}
    (short : ∀ element ∈ elements, element.length ≤ 30) (distinct : elements.Nodup) :
    elements.length < Text.digitBound := by
  have different : (elements.map letterCodes).Nodup :=
    distinct.map_on fun word inside other inside' =>
      eq_of_letterCodes_eq (short word inside) (short other inside')
  have bound := different.length_le_card
  rw [List.length_map, Fintype.card_fun, Fintype.card_option, Fintype.card_fin,
    Fintype.card_fin] at bound
  exact bound.trans_lt (by decide +kernel)

/-- The size of a ground set that passes the check can be written. -/
theorem size_lt_of_checkGroundElements {ground : Command} {rest : List Command}
    (checked : checkGroundElements catalog (ground :: rest) = .ok ()) :
    (FinSet.ofList ground.args).size < Text.digitBound := by
  obtain ⟨each, distinct⟩ := checkGroundElements_cons_eq_ok_iff.mp checked
  rw [FinSet.size, FinSet.toList_ofList_of_nodup distinct]
  exact length_lt_of_short (fun element member => (each element member).short) distinct

end Ground

/-! ## Declarations -/

section Declarations

variable {ground : List Element} {command : Command}

theorem checkEach_eq_ok_iff {defect? : Command → Option Cause} {entries : Numbered} :
    checkEach defect? entries = .ok () ↔ ∀ entry ∈ entries, defect? entry.1 = none := by
  induction entries with
  | nil => simp [checkEach]
  | cons entry rest ih =>
    rw [List.forall_mem_cons, ← ih]
    cases defect : defect? entry.1 with
    | some cause => simp [checkEach, defect]
    | none => simp [checkEach, defect]

theorem pairUp?_eq_some_iff {components : List Element} {pairs : List (Element × Element)} :
    Relation.pairUp? components = some pairs ↔ components = Relation.flatten pairs := by
  constructor
  · intro h
    fun_induction Relation.pairUp? components generalizing pairs with
    | case1 =>
      cases h
      rfl
    | case2 => cases h
    | case3 first second rest ih =>
      obtain ⟨found, hfound, rfl⟩ := Option.map_eq_some_iff.mp h
      rw [ih hfound]
      rfl
  · rintro rfl
    exact Relation.pairUp?_flatten pairs

theorem relationDefect?_eq_none_iff {args : List Element} :
    relationDefect? args = none ↔ ∃ pairs, args = Relation.flatten pairs ∧ pairs.Nodup := by
  simp only [← pairUp?_eq_some_iff]
  unfold relationDefect?
  split
  · rename_i odd
    simp [odd]
  · rename_i pairs even
    simp [even, firstRepeated?_eq_none_iff]

theorem declarationDefect?_eq_none_iff :
    declarationDefect? ground command = none ↔
      (declares command.role? = true → IsDeclaration ground command) := by
  unfold declarationDefect?
  by_cases hdeclares : declares command.role? = true
  · simp only [hdeclares, Bool.not_true, Bool.false_eq_true, if_false, forall_const]
    cases foreign : command.args.find? fun element => element ∉ ground with
    | some element =>
      simp only [reduceCtorEq, false_iff]
      have outside : element ∉ ground := by simpa using List.find?_some foreign
      have member : element ∈ command.args := List.mem_of_find?_eq_some foreign
      rintro (⟨_, inside, _⟩ | ⟨_, _, inside, _, _⟩)
      · exact outside (inside element member)
      · exact outside (inside element member)
    | none =>
      have inside : ∀ element ∈ command.args, element ∈ ground := by simpa using foreign
      by_cases role : command.role? = some .set
      · simp only [role, if_true, setDefect?, Option.map_eq_none_iff, firstRepeated?_eq_none_iff]
        constructor
        · exact fun distinct => .set role inside distinct
        · rintro (⟨_, _, distinct⟩ | ⟨_, other, _, _, _⟩)
          · exact distinct
          · simp [role] at other
      · have relation : command.role? = some .relation :=
          (declares_iff.mp hdeclares).resolve_left role
        simp only [role, if_false, relationDefect?_eq_none_iff]
        constructor
        · intro h
          obtain ⟨pairs, paired, distinct⟩ := h
          exact .relation pairs relation inside paired distinct
        · rintro (⟨other, _, _⟩ | ⟨pairs, _, _, paired, distinct⟩)
          · exact absurd other role
          · exact ⟨pairs, paired, distinct⟩
  · simp [hdeclares]

theorem checkDeclaredElements_cons_eq_ok_iff {first : Command} {rest : List Command} :
    checkDeclaredElements (first :: rest) = .ok () ↔
      ∀ command ∈ first :: rest, declares command.role? = true →
        IsDeclaration first.args command := by
  have fst : (number (first :: rest)).map Prod.fst = first :: rest := List.zipIdx_map_fst 1 _
  simp only [checkDeclaredElements, checkEach_eq_ok_iff, ← declarationDefect?_eq_none_iff]
  conv_rhs => rw [← fst]
  rw [List.forall_mem_map]

end Declarations

end RelCalc.Validation
