/-
  `Proofs.FinSet.Construction`: sets that are kept in two parts, and how sets come about.

  A set can be kept as the list of its elements with an index of its members beside it: the
  list says the order and the number of elements, the index answers membership.  Nothing
  ties the two parts together but the way they grow: an element is added to both or to
  neither, and whatever else makes a set adds its elements one by one.  So the parts stay in
  step however a set came about, and the list is that of the same set kept as a list alone.
-/
import RelCalc.Proofs.FinSet.Order
import RelCalc.Relation.Basic

set_option autoImplicit false

namespace RelCalc

/-- A set in two parts. -/
structure IndexedSet (α : Type) where
  /-- The elements in the order they came in. -/
  elements : List α
  /-- The members, to look them up. -/
  index : Finset α

namespace IndexedSet

variable {α : Type}

/-- Membership is looked up in the index. -/
instance : Membership α (IndexedSet α) := ⟨fun s a => a ∈ s.index⟩

instance [DecidableEq α] (a : α) (s : IndexedSet α) : Decidable (a ∈ s) :=
  inferInstanceAs (Decidable (a ∈ s.index))

instance : EmptyCollection (IndexedSet α) := ⟨⟨[], ∅⟩⟩

/-- Both parts of a set are those of a set kept as a list alone. -/
structure Represents (k : IndexedSet α) (s : FinSet α) : Prop where
  elements_eq : k.elements = s.toList
  index_eq : k.index = s.members

section InStep

variable {k : IndexedSet α} {s : FinSet α}

theorem Represents.mem_iff (h : k.Represents s) {a : α} : a ∈ k ↔ a ∈ s := by
  show a ∈ k.index ↔ _
  rw [h.index_eq, FinSet.mem_members]

/-- What is looked up in the index is what the list holds. -/
theorem Represents.mem_iff_mem_elements (h : k.Represents s) {a : α} :
    a ∈ k ↔ a ∈ k.elements := by
  rw [h.mem_iff, h.elements_eq, FinSet.mem_def]

theorem represents_empty : (∅ : IndexedSet α).Represents ∅ := ⟨rfl, rfl⟩

/-- A fold of operations that represent others represents their fold. -/
theorem represents_foldl {op : IndexedSet α → IndexedSet α → IndexedSet α}
    {op' : FinSet α → FinSet α → FinSet α} {ks : List (IndexedSet α)} {ss : List (FinSet α)}
    (step : ∀ {k l s t}, Represents k s → Represents l t → (op k l).Represents (op' s t))
    (others : List.Forall₂ Represents ks ss) (h : k.Represents s) :
    (ks.foldl op k).Represents (ss.foldl op' s) := by
  induction others generalizing k s with
  | nil => exact h
  | cons first _ ih => exact ih (step h first)

end InStep

section Making

variable [DecidableEq α] {k l : IndexedSet α} {s t : FinSet α} {ks : List (IndexedSet α)}
  {ss : List (FinSet α)}

/-! ## Growing -/

/-- One more element, in both parts; an element found in the index changes nothing. -/
def add (s : IndexedSet α) (a : α) : IndexedSet α :=
  if a ∈ s then s else ⟨s.elements ++ [a], insert a s.index⟩

/-- Adding keeps the parts in step. -/
theorem Represents.add (h : k.Represents s) (a : α) : (k.add a).Represents (s.insert a) := by
  unfold IndexedSet.add
  by_cases inside : a ∈ k
  · rw [if_pos inside, FinSet.insert_of_mem (h.mem_iff.mp inside)]
    exact h
  · rw [if_neg inside]
    constructor
    · rw [FinSet.toList_insert, if_neg (mt h.mem_iff.mpr inside), h.elements_eq]
    · rw [FinSet.members_insert, h.index_eq]

/-- The entries of a list, added one by one. -/
def ofList (entries : List α) : IndexedSet α := entries.foldl add ∅

theorem represents_ofList (entries : List α) :
    (ofList entries).Represents (FinSet.ofList entries) := by
  -- The entries may come in over any set, so that the induction can go on after the first.
  suffices grown : ∀ {k : IndexedSet α} {s : FinSet α}, k.Represents s →
      (entries.foldl IndexedSet.add k).Represents (s.insertAll entries) from
    grown represents_empty
  induction entries with
  | nil => exact id
  | cons a rest ih => exact fun h => ih (h.add a)

/-! ## New sets out of others -/

/-- A new set of the elements that pass a test. -/
def select (s : IndexedSet α) (test : α → Bool) : IndexedSet α := ofList (s.elements.filter test)

theorem Represents.select (h : k.Represents s) (test : α → Bool) :
    (k.select test).Represents (s.filter test) := by
  have chosen : FinSet.ofList (k.elements.filter test) = s.filter test := by
    rw [h.elements_eq]
    exact FinSet.ofList_toList (s.filter test)
  rw [← chosen]
  exact represents_ofList _

/-- A new set of the elements of both. -/
def union (s t : IndexedSet α) : IndexedSet α := ofList (s.elements ++ t.elements)

theorem Represents.union (h : k.Represents s) (h' : l.Represents t) :
    (k.union l).Represents (s ∪ t) := by
  have joined : s ∪ t = FinSet.ofList (k.elements ++ l.elements) := by
    rw [h.elements_eq, h'.elements_eq]
    exact FinSet.insertAll_eq_ofList s t.toList
  rw [joined]
  exact represents_ofList _

/-- A new set of the elements of the first that are in the second. -/
def inter (s t : IndexedSet α) : IndexedSet α := s.select fun a => a ∈ t

theorem Represents.inter (h : k.Represents s) (h' : l.Represents t) :
    (k.inter l).Represents (s ∩ t) := by
  unfold IndexedSet.inter
  simp only [h'.mem_iff]
  exact h.select _

/-- A new set of the elements of the first that are not in the second. -/
def diff (s t : IndexedSet α) : IndexedSet α := s.select fun a => a ∉ t

theorem Represents.diff (h : k.Represents s) (h' : l.Represents t) :
    (k.diff l).Represents (s \ t) := by
  unfold IndexedSet.diff
  simp only [h'.mem_iff]
  exact h.select _

/-- The union of two sets or more, folded from the left. -/
def unions (s t : IndexedSet α) (others : List (IndexedSet α)) : IndexedSet α :=
  others.foldl union (s.union t)

theorem Represents.unions (h : k.Represents s) (h' : l.Represents t)
    (others : List.Forall₂ Represents ks ss) :
    (k.unions l ks).Represents (FinSet.unions s t ss) :=
  represents_foldl Represents.union others (h.union h')

/-- The intersection of two sets or more, folded from the left. -/
def inters (s t : IndexedSet α) (others : List (IndexedSet α)) : IndexedSet α :=
  others.foldl inter (s.inter t)

theorem Represents.inters (h : k.Represents s) (h' : l.Represents t)
    (others : List.Forall₂ Represents ks ss) :
    (k.inters l ks).Represents (FinSet.inters s t ss) :=
  represents_foldl Represents.inter others (h.inter h')

end Making

end IndexedSet

/-! ## How sets come about -/

/-- The making of a set: from a list, by adding to a set, or out of other sets. -/
inductive Construction where
  | ofList (entries : List Element)
  | add (grown : Construction) (entry : Element)
  | union (first second : Construction) (others : List Construction)
  | inter (first second : Construction) (others : List Construction)
  | diff (first second : Construction)
  | compl (ground left : Construction)
  | domain (ground : Construction) (r : Relation)
  | codomain (ground : Construction) (r : Relation)

namespace Construction

mutual

/-- The set that is made, in two parts. -/
def indexed : Construction → IndexedSet Element
  | ofList entries => .ofList entries
  | add grown entry => grown.indexed.add entry
  | union first second others => first.indexed.unions second.indexed (indexedOfAll others)
  | inter first second others => first.indexed.inters second.indexed (indexedOfAll others)
  | diff first second => first.indexed.diff second.indexed
  | compl ground left => ground.indexed.diff left.indexed
  | domain ground r => ground.indexed.select fun a => a ∈ r.toList.map Prod.fst
  | codomain ground r => ground.indexed.select fun b => b ∈ r.toList.map Prod.snd

/-- The sets that are made, in two parts. -/
def indexedOfAll : List Construction → List (IndexedSet Element)
  | [] => []
  | made :: rest => made.indexed :: indexedOfAll rest

end

mutual

/-- The set that is made, as a list alone. -/
def listed : Construction → FinSet Element
  | ofList entries => .ofList entries
  | add grown entry => grown.listed.insert entry
  | union first second others => FinSet.unions first.listed second.listed (listedOfAll others)
  | inter first second others => FinSet.inters first.listed second.listed (listedOfAll others)
  | diff first second => first.listed \ second.listed
  | compl ground left => FinSet.compl ground.listed left.listed
  | domain ground r => Relation.domain ground.listed r
  | codomain ground r => Relation.codomain ground.listed r

/-- The sets that are made, as lists alone. -/
def listedOfAll : List Construction → List (FinSet Element)
  | [] => []
  | made :: rest => made.listed :: listedOfAll rest

end

mutual

/-- However a set is made, its two parts are those of the set made as a list alone. -/
theorem represents : (made : Construction) → made.indexed.Represents made.listed
  | ofList entries => by
      rw [indexed, listed]
      exact IndexedSet.represents_ofList entries
  | add grown entry => by
      rw [indexed, listed]
      exact (represents grown).add entry
  | union first second others => by
      rw [indexed, listed]
      exact (represents first).unions (represents second) (representsAll others)
  | inter first second others => by
      rw [indexed, listed]
      exact (represents first).inters (represents second) (representsAll others)
  | diff first second => by
      rw [indexed, listed]
      exact (represents first).diff (represents second)
  | compl ground left => by
      rw [indexed, listed]
      exact (represents ground).diff (represents left)
  | domain ground r => by
      rw [indexed, listed]
      exact (represents ground).select _
  | codomain ground r => by
      rw [indexed, listed]
      exact (represents ground).select _

theorem representsAll : (all : List Construction) →
    List.Forall₂ IndexedSet.Represents (indexedOfAll all) (listedOfAll all)
  | [] => by
      rw [indexedOfAll, listedOfAll]
      exact .nil
  | made :: rest => by
      rw [indexedOfAll, listedOfAll]
      exact .cons (represents made) (representsAll rest)

end

/-- **Sets keep their two parts in step, and operations list their elements in a known order.**
However a set is made, its list has no repeats, its index finds what the list holds, and the list is
that of the set made as a list alone.  A set made from a list holds each entry where it first
occurs; a union holds the elements of all its sets in this way, an intersection the elements of its
first set that all others hold, and neither depends on brackets; a difference or a complement holds
the elements of its first set that the second does not hold. -/
theorem inStep_and_ordered :
    (∀ made : Construction,
      made.indexed.elements.Nodup ∧ (∀ a, a ∈ made.indexed ↔ a ∈ made.indexed.elements) ∧
        made.indexed.elements = made.listed.toList) ∧
    (∀ entries : List Element, (FinSet.ofList entries).toList = entries.eraseDups) ∧
    (∀ (s t : FinSet Element) (others : List (FinSet Element)),
      (FinSet.unions s t others).toList =
        ((s :: t :: others).flatMap FinSet.toList).eraseDups ∧
      (FinSet.inters s t others).toList = s.toList.filter (fun a => ∀ u ∈ t :: others, a ∈ u) ∧
      ∀ brackets : Bracketing (FinSet Element), brackets.operands = s :: t :: others →
        (brackets.result FinSet.unions).toList = (FinSet.unions s t others).toList ∧
        (brackets.result FinSet.inters).toList = (FinSet.inters s t others).toList) ∧
    ∀ s t : FinSet Element,
      (s \ t).toList = s.toList.filter (fun a => a ∉ t) ∧
      (FinSet.compl s t).toList = s.toList.filter (fun a => a ∉ t) := by
  refine ⟨fun made => ?_, FinSet.toList_ofList, fun s t others => ?_, fun s t => ⟨rfl, rfl⟩⟩
  · have parts := represents made
    refine ⟨?_, fun a => parts.mem_iff_mem_elements, parts.elements_eq⟩
    rw [parts.elements_eq]
    exact made.listed.nodup
  · refine ⟨FinSet.toList_unions s t others, FinSet.toList_inters s t others, fun brackets eq => ?_⟩
    rw [FinSet.result_unions eq, FinSet.result_inters eq]
    exact ⟨rfl, rfl⟩

/-- Four sets with a call inside a call: a repeated element stays where it came in first. -/
theorem inStep_and_ordered_nested :
    let s : FinSet Element := FinSet.ofList ["c", "a"]
    let t : FinSet Element := FinSet.ofList ["b", "a", "c"]
    let u : FinSet Element := FinSet.ofList ["d", "c"]
    let v : FinSet Element := FinSet.ofList ["a", "c"]
    let brackets : Bracketing (FinSet Element) :=
      .call (.operand s) (.call (.operand t) (.operand u) []) [.operand v]
    brackets.operands = [s, t, u, v] ∧
      (brackets.result FinSet.unions).toList = ["c", "a", "b", "d"] ∧
        (brackets.result FinSet.inters).toList = ["c"] := by
  intro s t u v brackets
  have flat : brackets.operands = [s, t, u, v] := rfl
  obtain ⟨-, -, folds, -⟩ := inStep_and_ordered
  obtain ⟨union, inter, free⟩ := folds s t [u, v]
  obtain ⟨freeUnion, freeInter⟩ := free brackets flat
  refine ⟨flat, ?_, ?_⟩
  · rw [freeUnion, union]
    decide
  · rw [freeInter, inter]
    decide

end Construction

end RelCalc
