/-
  `Proofs.FinSet.Order`: in which order the operations list their elements.

  A set made from a list holds each entry where it first occurs.  A union of sets holds
  the elements of all of them in this way, one set after the other; an intersection lists
  what its first set shares with all others.  Both are associative with the order of the
  elements, so nested unions, or nested intersections, of the same sets in the same
  sequence give the same list however they are bracketed.
-/
import RelCalc.Proofs.FinSet.Members

set_option autoImplicit false

namespace RelCalc

namespace FinSet

variable {α : Type} [DecidableEq α] {s : FinSet α}

/-! ## First occurrences -/

theorem insert_of_mem {a : α} (inside : a ∈ s) : s.insert a = s :=
  ext (by rw [toList_insert, if_pos inside])

theorem insertAll_append (s : FinSet α) (entries more : List α) :
    s.insertAll (entries ++ more) = (s.insertAll entries).insertAll more :=
  List.foldl_append

/-- Inserted entries follow the elements that are there, each new one where it first occurs. -/
theorem toList_insertAll (s : FinSet α) (entries : List α) :
    (s.insertAll entries).toList = s.toList ++ (entries.filter fun a => a ∉ s).eraseDups := by
  induction entries generalizing s with
  | nil => simp [insertAll]
  | cons a rest ih =>
    have step : s.insertAll (a :: rest) = (s.insert a).insertAll rest := rfl
    rw [step]
    by_cases inside : a ∈ s
    · rw [insert_of_mem inside, ih, List.filter_cons_of_neg (by simpa using inside)]
    · -- Later occurrences of `a` are now elements; `eraseDups` leaves them out in its own way.
      have new : (rest.filter fun b => b ∉ s.insert a) =
          (rest.filter fun b => b ∉ s).filter fun b => !b == a := by
        rw [List.filter_filter]
        refine List.filter_congr fun b _ => ?_
        simp [Bool.and_comm, Bool.beq_eq_decide_eq]
      rw [ih, toList_insert, if_neg inside, new, List.filter_cons_of_pos (by simpa using inside),
        List.eraseDups_cons, List.append_assoc, List.singleton_append]

/-- A set made from a list holds each entry where it first occurs. -/
theorem toList_ofList (entries : List α) : (ofList entries).toList = entries.eraseDups := by
  have all : (entries.filter fun a => a ∉ (∅ : FinSet α)) = entries :=
    List.filter_eq_self.mpr fun a _ => decide_eq_true (not_mem_empty a)
  rw [ofList, toList_insertAll, all, toList_empty, List.nil_append]

theorem eraseDups_of_nodup {entries : List α} (distinct : entries.Nodup) :
    entries.eraseDups = entries := by
  rw [← toList_ofList, toList_ofList_of_nodup distinct]

/-- A union is the first set, and behind it what only the second has. -/
theorem toList_union (s t : FinSet α) :
    (s ∪ t).toList = s.toList ++ t.toList.filter fun a => a ∉ s :=
  (toList_insertAll s t.toList).trans (by rw [eraseDups_of_nodup (t.nodup.filter _)])

/-- Inserting into a set goes on where the set was made. -/
theorem insertAll_eq_ofList (s : FinSet α) (entries : List α) :
    s.insertAll entries = ofList (s.toList ++ entries) := by
  rw [ofList, insertAll_append, ← ofList, ofList_toList]

/-! ## Associativity -/

theorem union_insert (s t : FinSet α) (a : α) : s ∪ t.insert a = (s ∪ t).insert a := by
  by_cases inside : a ∈ t
  · have already : a ∈ s ∪ t := mem_union.mpr (.inr inside)
    rw [insert_of_mem inside, insert_of_mem already]
  · have listed : (t.insert a).toList = t.toList ++ [a] := by rw [toList_insert, if_neg inside]
    show s.insertAll (t.insert a).toList = _
    rw [listed, insertAll_append]
    rfl

/-- Entries that come in over another set come in at the same places. -/
theorem union_insertAll (s t : FinSet α) (entries : List α) :
    s ∪ t.insertAll entries = (s ∪ t).insertAll entries := by
  induction entries generalizing t with
  | nil => rfl
  | cons a rest ih =>
    have step (u : FinSet α) : u.insertAll (a :: rest) = (u.insert a).insertAll rest := rfl
    rw [step, ih, union_insert, step]

theorem union_assoc (s t u : FinSet α) : s ∪ t ∪ u = s ∪ (t ∪ u) :=
  (union_insertAll s t u.toList).symm

theorem inter_assoc (s t u : FinSet α) : s ∩ t ∩ u = s ∩ (t ∩ u) := by
  have inOrder : (s ∩ t ∩ u).KeepsOrderOf s :=
    (keepsOrderOf_inter _ u).trans (keepsOrderOf_inter s t)
  refine inOrder.eq_of_mem_iff (keepsOrderOf_inter s _) fun a => ?_
  simp only [mem_inter, and_assoc]

instance : Std.Associative (union : FinSet α → FinSet α → FinSet α) := ⟨union_assoc⟩

instance : Std.Associative (inter : FinSet α → FinSet α → FinSet α) := ⟨inter_assoc⟩

/-! ## Two sets or more -/

theorem foldl_union (s : FinSet α) (others : List (FinSet α)) :
    others.foldl union s = s.insertAll (others.flatMap toList) := by
  induction others generalizing s with
  | nil => rfl
  | cons t rest ih =>
    rw [List.foldl_cons, ih, List.flatMap_cons, insertAll_append]
    rfl

/-- A union lists the elements of its sets, one set after the other, each element where it first
occurs. -/
theorem toList_unions (s t : FinSet α) (others : List (FinSet α)) :
    (unions s t others).toList = ((s :: t :: others).flatMap toList).eraseDups := by
  have fold : unions s t others = (t :: others).foldl union s := rfl
  rw [fold, foldl_union, insertAll_eq_ofList, toList_ofList, ← List.flatMap_cons]

theorem keepsOrderOf_foldl_inter (s : FinSet α) (others : List (FinSet α)) :
    (others.foldl inter s).KeepsOrderOf s := by
  induction others generalizing s with
  | nil => exact List.Sublist.refl _
  | cons t rest ih => exact (ih _).trans (keepsOrderOf_inter s t)

theorem mem_foldl_inter {others : List (FinSet α)} {a : α} :
    a ∈ others.foldl inter s ↔ a ∈ s ∧ ∀ t ∈ others, a ∈ t := by
  induction others generalizing s with
  | nil => simp
  | cons t rest ih =>
    rw [List.foldl_cons, ih, List.forall_mem_cons, ← and_assoc]
    exact and_congr_left' mem_inter

/-- An intersection lists what its first set shares with all others. -/
theorem toList_inters (s t : FinSet α) (others : List (FinSet α)) :
    (inters s t others).toList = s.toList.filter fun a => ∀ u ∈ t :: others, a ∈ u := by
  have fold : inters s t others = (t :: others).foldl inter s := rfl
  rw [fold, (keepsOrderOf_foldl_inter s _).toList_eq_filter]
  refine List.filter_congr fun a inside => decide_eq_decide.mpr ?_
  exact mem_foldl_inter.trans (and_iff_right inside)

end FinSet

/-! ## Brackets -/

/-- Calls of a routine on two operands or more, with calls among the operands. -/
inductive Bracketing (σ : Type) where
  | operand (value : σ)
  | call (first second : Bracketing σ) (others : List (Bracketing σ))

namespace Bracketing

variable {σ : Type}

mutual

/-- The operands without the brackets, from left to right. -/
def operands : Bracketing σ → List σ
  | operand value => [value]
  | call first second others => first.operands ++ second.operands ++ operandsOfAll others

/-- The operands of one after the other. -/
def operandsOfAll : List (Bracketing σ) → List σ
  | [] => []
  | brackets :: rest => brackets.operands ++ operandsOfAll rest

end

mutual

/-- What the calls give, the inner ones first. -/
def result (routine : σ → σ → List σ → σ) : Bracketing σ → σ
  | operand value => value
  | call first second others =>
      routine (first.result routine) (second.result routine) (resultsOfAll routine others)

/-- What each gives. -/
def resultsOfAll (routine : σ → σ → List σ → σ) : List (Bracketing σ) → List σ
  | [] => []
  | brackets :: rest => brackets.result routine :: resultsOfAll routine rest

end

theorem exists_operands_eq_cons :
    (brackets : Bracketing σ) → ∃ first others, brackets.operands = first :: others
  | operand value => ⟨value, [], by rw [operands]⟩
  | call first second others => by
      obtain ⟨value, more, eq⟩ := exists_operands_eq_cons first
      exact ⟨value, more ++ second.operands ++ operandsOfAll others, by simp [operands, eq]⟩

/-- The routine that folds two operands or more from the left. -/
def folded (op : σ → σ → σ) (first second : σ) (others : List σ) : σ :=
  others.foldl op (op first second)

section Associative

variable (op : σ → σ → σ)

mutual

/-- To combine with the result of calls is to combine with one operand after the other. -/
theorem op_result [Std.Associative op] (value : σ) :
    (brackets : Bracketing σ) →
      op value (brackets.result (folded op)) = brackets.operands.foldl op value
  | operand other => by rw [result, operands, List.foldl_cons, List.foldl_nil]
  | call first second others => by
      have outward (x : σ) (xs : List σ) : op value (xs.foldl op x) = xs.foldl op (op value x) :=
        List.foldl_assoc.symm
      have regroup (x y : σ) : op value (op x y) = op (op value x) y :=
        (Std.Associative.assoc value x y).symm
      rw [result, folded, outward, regroup, op_result value first, op_result _ second,
        foldl_results _ others, operands, List.foldl_append, List.foldl_append]

theorem foldl_results [Std.Associative op] (value : σ) :
    (all : List (Bracketing σ)) →
      (resultsOfAll (folded op) all).foldl op value = (operandsOfAll all).foldl op value
  | [] => by rw [resultsOfAll, operandsOfAll]
  | brackets :: rest => by
      rw [resultsOfAll, operandsOfAll, List.foldl_cons, List.foldl_append, op_result value brackets,
        foldl_results _ rest]

end

/-- Calls of a routine that folds an associative operation give what one call gives. -/
theorem result_eq_foldl [Std.Associative op] {first : σ} {others : List σ} :
    {brackets : Bracketing σ} → brackets.operands = first :: others →
      brackets.result (folded op) = others.foldl op first
  | operand value, eq => by
      rw [operands] at eq
      obtain ⟨rfl, rfl⟩ := List.cons.inj eq
      rw [result, List.foldl_nil]
  -- An associative operation need not have a neutral element to start from, so the first operand,
  -- which may itself stand in brackets, is taken out of the innermost call.
  | call inner second rest, eq => by
      obtain ⟨value, more, listed⟩ := exists_operands_eq_cons inner
      rw [operands, listed, List.cons_append, List.cons_append] at eq
      obtain ⟨rfl, rfl⟩ := List.cons.inj eq
      rw [result, folded, result_eq_foldl listed, op_result op, foldl_results op,
        List.foldl_append, List.foldl_append]

end Associative

end Bracketing

namespace FinSet

variable {α : Type} [DecidableEq α] {brackets : Bracketing (FinSet α)} {s t : FinSet α}
  {others : List (FinSet α)}

/-- Brackets in a union do not matter. -/
theorem result_unions (eq : brackets.operands = s :: t :: others) :
    brackets.result unions = unions s t others := by
  show brackets.result (Bracketing.folded union) = (t :: others).foldl union s
  exact Bracketing.result_eq_foldl union eq

/-- Brackets in an intersection do not matter. -/
theorem result_inters (eq : brackets.operands = s :: t :: others) :
    brackets.result inters = inters s t others := by
  show brackets.result (Bracketing.folded inter) = (t :: others).foldl inter s
  exact Bracketing.result_eq_foldl inter eq

end FinSet

end RelCalc
