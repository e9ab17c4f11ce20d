/-
  `Proofs.Outcome`: computations that give a result or a fault, taken apart.

  A sequence of steps succeeds exactly when every step does, and it fails at the
  first step that fails.  The statements here read the result of a whole off the
  results of its steps, so no later proof opens a bind or a traversal.
-/
import Mathlib.Data.List.Forall2

set_option autoImplicit false

namespace RelCalc.Outcome

variable {α β γ ε : Type}

/-! ## Two steps -/

/-- Two steps succeed when both do. -/
theorem bind_eq_ok_iff {first : Except ε α} {next : α → Except ε β} {b : β} :
    (first >>= next) = .ok b ↔ ∃ a, first = .ok a ∧ next a = .ok b := by
  cases first <;> simp [bind, Except.bind]

/-- After a check that passes, the next step decides. -/
theorem check_bind_eq_ok_iff {check : Except ε Unit} {next : Unit → Except ε β} {b : β} :
    (check >>= next) = .ok b ↔ check = .ok () ∧ next () = .ok b := by
  cases check <;> simp [bind, Except.bind]

/-- Two steps fail when the first fails, or when it succeeds and the second fails. -/
theorem bind_eq_error_iff {first : Except ε α} {next : α → Except ε β} {e : ε} :
    (first >>= next) = .error e ↔
      first = .error e ∨ ∃ a, first = .ok a ∧ next a = .error e := by
  cases first <;> simp [bind, Except.bind]

/-- A result handed on unchanged is that result. -/
@[simp] theorem pure_eq_ok_iff {a b : α} : (pure a : Except ε α) = .ok b ↔ a = b := by
  simp [pure, Except.pure]

/-! ## Other faults -/

section MapError

variable {δ : Type} {first : Except ε α} {next : α → Except ε β} {f : ε → δ}

/-- A step whose fault is replaced succeeds as the step does. -/
theorem mapError_eq_ok_iff {a : α} : first.mapError f = .ok a ↔ first = .ok a := by
  cases first <;> simp [Except.mapError]

theorem mapError_eq_error_iff {d : δ} :
    first.mapError f = .error d ↔ ∃ e, first = .error e ∧ f e = d := by
  cases first <;> simp [Except.mapError]

/-- The fault of two steps is replaced where it arises. -/
theorem mapError_bind :
    (first >>= next).mapError f = first.mapError f >>= fun a => (next a).mapError f := by
  cases first <;> rfl

end MapError

/-! ## Related lists -/

section Related

variable {R : α → β → Prop} {entries : List α} {others : List β} {i : Nat}

/-- What follows for an entry from each pair holds of all entries. -/
theorem forall_mem_of_forall₂ {P : α → Prop} (h : List.Forall₂ R entries others)
    (each : ∀ a b, R a b → P a) : ∀ a ∈ entries, P a := by
  induction h with
  | nil => simp
  | cons pair _ ih => exact List.forall_mem_cons.mpr ⟨each _ _ pair, ih⟩

/-- An entry is related to the one in the same place. -/
theorem exists_right_of_forall₂ (h : List.Forall₂ R entries others) {a : α}
    (found : entries[i]? = some a) : ∃ b, others[i]? = some b ∧ R a b := by
  induction h generalizing i with
  | nil => cases found
  | @cons first other rest later related _ ih =>
    cases i with
    | zero =>
      cases found
      exact ⟨other, rfl, related⟩
    | succ i => exact ih found

theorem exists_left_of_forall₂ (h : List.Forall₂ R entries others) {b : β}
    (found : others[i]? = some b) : ∃ a, entries[i]? = some a ∧ R a b :=
  exists_right_of_forall₂ h.flip found

/-- Related lists have the same image if related entries have. -/
theorem map_eq_of_forall₂ (h : List.Forall₂ R entries others) {f : α → γ} {g : β → γ}
    (same : ∀ a b, R a b → g b = f a) : others.map g = entries.map f := by
  induction h with
  | nil => rfl
  | cons related _ ih => rw [List.map_cons, List.map_cons, same _ _ related, ih]

end Related

/-! ## Traversals -/

/-- A traversal succeeds when every entry does, with the results in the same order. -/
theorem mapM_eq_ok_iff {f : α → Except ε β} {entries : List α} {results : List β} :
    entries.mapM f = .ok results ↔ List.Forall₂ (fun a b => f a = .ok b) entries results := by
  induction entries generalizing results with
  | nil =>
    rw [List.mapM_nil, pure_eq_ok_iff, List.forall₂_nil_left_iff]
    exact eq_comm
  | cons a rest ih =>
    simp only [List.mapM_cons, bind_eq_ok_iff, pure_eq_ok_iff, List.forall₂_cons_left_iff]
    constructor
    · intro h
      obtain ⟨b, hb, bs, hbs, rfl⟩ := h
      exact ⟨b, bs, hb, ih.mp hbs, rfl⟩
    · intro h
      obtain ⟨b, bs, hb, hbs, rfl⟩ := h
      exact ⟨b, hb, bs, ih.mpr hbs, rfl⟩

/-- A traversal has results when every entry has one. -/
theorem exists_mapM_eq_ok {f : α → Except ε β} {entries : List α}
    (each : ∀ a ∈ entries, ∃ b, f a = .ok b) : ∃ results, entries.mapM f = .ok results := by
  induction entries with
  | nil => exact ⟨[], rfl⟩
  | cons a rest ih =>
    obtain ⟨b, hb⟩ := each a (by simp)
    obtain ⟨bs, hbs⟩ := ih fun x hx => each x (List.mem_cons_of_mem a hx)
    exact ⟨b :: bs, mapM_eq_ok_iff.mpr (.cons hb (mapM_eq_ok_iff.mp hbs))⟩

/-- A traversal of two lists in a row gives the two lists of results in a row. -/
theorem mapM_append_eq_ok_iff {f : α → Except ε β} {entries more : List α} {results : List β} :
    (entries ++ more).mapM f = .ok results ↔
      ∃ bs cs, entries.mapM f = .ok bs ∧ more.mapM f = .ok cs ∧ results = bs ++ cs := by
  rw [List.mapM_append]
  simp only [bind_eq_ok_iff, pure_eq_ok_iff]
  constructor
  · intro h
    obtain ⟨bs, hbs, cs, hcs, rfl⟩ := h
    exact ⟨bs, cs, hbs, hcs, rfl⟩
  · intro h
    obtain ⟨bs, cs, hbs, hcs, rfl⟩ := h
    exact ⟨bs, hbs, cs, hcs, rfl⟩

end RelCalc.Outcome
