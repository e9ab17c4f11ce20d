/-
  `FinSet.Basic`: finite sets that remember the order of their elements.

  A finite set is a list without repeats.  The order is the order in which the
  elements first came in; it decides how a set prints and in which order it is
  gone through, and nothing else: two sets are the same when they have the same
  elements.  Every construction keeps the list free of repeats, and this is part
  of the type.
-/

set_option autoImplicit false

namespace RelCalc

/-- A finite set: its elements, each once, in the order they came in. -/
structure FinSet (α : Type) where
  toList : List α
  nodup : toList.Nodup

namespace FinSet

variable {α : Type}

/-- A set is its list of elements. -/
theorem ext {s t : FinSet α} (h : s.toList = t.toList) : s = t := by
  cases s
  cases t
  cases h
  rfl

/-- Membership is membership in the list of elements. -/
instance : Membership α (FinSet α) := ⟨fun s a => a ∈ s.toList⟩

theorem mem_def {s : FinSet α} {a : α} : a ∈ s ↔ a ∈ s.toList := Iff.rfl

instance [DecidableEq α] (a : α) (s : FinSet α) : Decidable (a ∈ s) :=
  inferInstanceAs (Decidable (a ∈ s.toList))

instance [DecidableEq α] : DecidableEq (FinSet α) := fun s t =>
  if h : s.toList = t.toList then .isTrue (ext h) else .isFalse fun same => h (same ▸ rfl)

/-- The set without elements. -/
def empty : FinSet α := ⟨[], List.nodup_nil⟩

instance : EmptyCollection (FinSet α) := ⟨empty⟩

instance : Inhabited (FinSet α) := ⟨empty⟩

/-- The number of elements. -/
def size (s : FinSet α) : Nat := s.toList.length

/-- The set has no elements. -/
def isEmpty (s : FinSet α) : Bool := s.toList.isEmpty

/-- The element at a position. -/
def get (s : FinSet α) (i : Fin s.size) : α := s.toList.get i

/-- A set with one more element, at the end; an element that is already there changes nothing. -/
def insert [DecidableEq α] (s : FinSet α) (a : α) : FinSet α :=
  if h : a ∈ s.toList then s
  else ⟨s.toList ++ [a], by
    simp only [List.nodup_append, List.mem_singleton, List.nodup_cons, List.not_mem_nil,
      not_false_eq_true, List.nodup_nil, and_self, true_and]
    exact ⟨s.nodup, fun x hx y hy => by rintro rfl; exact h (hy ▸ hx)⟩⟩

/-- Insert the entries of a list one after the other. -/
def insertAll [DecidableEq α] (s : FinSet α) (entries : List α) : FinSet α :=
  entries.foldl insert s

/-- The entries of a list, each where it first occurs. -/
def ofList [DecidableEq α] (entries : List α) : FinSet α := insertAll ∅ entries

/-- The elements that pass a test, in their order. -/
def filter (s : FinSet α) (test : α → Bool) : FinSet α :=
  ⟨s.toList.filter test, s.nodup.sublist List.filter_sublist⟩

/-- Two sets are the same up to order when each holds the elements of the other. -/
def Same (s t : FinSet α) : Prop := ∀ a, a ∈ s ↔ a ∈ t

/-- Sameness up to order as a test: each list is contained in the other. -/
def same [DecidableEq α] (s t : FinSet α) : Bool :=
  (s.toList.all fun a => a ∈ t) && t.toList.all fun a => a ∈ s

/-! ## What the constructions hold -/

@[simp] theorem toList_empty : (∅ : FinSet α).toList = [] := rfl

@[simp] theorem not_mem_empty (a : α) : a ∉ (∅ : FinSet α) := by simp [mem_def]

theorem toList_insert [DecidableEq α] (s : FinSet α) (a : α) :
    (s.insert a).toList = if a ∈ s then s.toList else s.toList ++ [a] := by
  unfold insert
  by_cases h : a ∈ s.toList
  · simp [h, mem_def]
  · simp [h, mem_def]

@[simp] theorem mem_insert [DecidableEq α] {s : FinSet α} {a x : α} :
    x ∈ s.insert a ↔ x ∈ s ∨ x = a := by
  rw [mem_def, toList_insert]
  by_cases h : a ∈ s
  · simp only [h, if_true, ← mem_def]
    constructor
    · exact Or.inl
    · rintro (inside | rfl)
      · exact inside
      · exact h
  · simp [h, mem_def]

@[simp] theorem mem_insertAll [DecidableEq α] {s : FinSet α} {entries : List α} {x : α} :
    x ∈ s.insertAll entries ↔ x ∈ s ∨ x ∈ entries := by
  induction entries generalizing s with
  | nil => simp [insertAll]
  | cons a rest ih =>
    have step : s.insertAll (a :: rest) = (s.insert a).insertAll rest := rfl
    rw [step, ih, mem_insert]
    simp only [List.mem_cons, or_assoc]

@[simp] theorem mem_ofList [DecidableEq α] {entries : List α} {x : α} :
    x ∈ ofList entries ↔ x ∈ entries := by
  show x ∈ (∅ : FinSet α).insertAll entries ↔ x ∈ entries
  simp

@[simp] theorem mem_filter {s : FinSet α} {test : α → Bool} {x : α} :
    x ∈ s.filter test ↔ x ∈ s ∧ test x = true := by
  simp [mem_def, filter]

/-- Entries that are new and pairwise different are appended as they are. -/
theorem toList_insertAll_of_nodup [DecidableEq α] {s : FinSet α} {entries : List α}
    (fresh : (s.toList ++ entries).Nodup) :
    (s.insertAll entries).toList = s.toList ++ entries := by
  induction entries generalizing s with
  | nil => simp [insertAll]
  | cons a rest ih =>
    have step : s.insertAll (a :: rest) = (s.insert a).insertAll rest := rfl
    have new : a ∉ s := fun inside =>
      (List.nodup_append.1 fresh).2.2 a inside a (by simp) rfl
    have grown : (s.insert a).toList = s.toList ++ [a] := by simp [toList_insert, new]
    rw [step, ih (by simpa [grown] using fresh), grown]
    simp

/-- A list without repeats is the list of its own set. -/
theorem toList_ofList_of_nodup [DecidableEq α] {entries : List α} (h : entries.Nodup) :
    (ofList entries).toList = entries := by
  have fresh : ((∅ : FinSet α).toList ++ entries).Nodup := by simpa using h
  exact toList_insertAll_of_nodup fresh

/-- The set of the elements of a set is that set. -/
theorem ofList_toList [DecidableEq α] (s : FinSet α) : ofList s.toList = s :=
  ext (toList_ofList_of_nodup s.nodup)

/-- The test decides sameness up to order. -/
theorem same_iff [DecidableEq α] {s t : FinSet α} : s.same t = true ↔ s.Same t := by
  simp only [same, Bool.and_eq_true, List.all_eq_true, decide_eq_true_eq]
  exact ⟨fun h a => ⟨h.1 a, h.2 a⟩, fun h => ⟨fun a => (h a).1, fun a => (h a).2⟩⟩

instance [DecidableEq α] (s t : FinSet α) : Decidable (s.Same t) :=
  decidable_of_iff _ same_iff

end FinSet

end RelCalc
