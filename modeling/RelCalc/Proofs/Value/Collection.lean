/-
  `Proofs.Value.Collection`: sets and relations compared, hashed and counted.

  A collection is a set or a relation together with how it comes about.  A set is kept in two
  parts: it is compared and hashed by its index, and its size is the length of its list.  A
  relation is kept as a list of pairs, of which comparing and hashing see only which pairs there
  are.  Both compare as their values do, so equality does not see order or repeats; equal
  collections have one size and one hash, and a hash table holds one collection of each class.
-/
import RelCalc.Proofs.Evaluation.Slots
import RelCalc.Proofs.FinSet.Comparison
import RelCalc.Proofs.Value.Sameness

set_option autoImplicit false

namespace RelCalc

namespace Construction

/-- A set made from a list, to which more entries are added one after the other. -/
def grown (entries added : List Element) : Construction := added.foldl add (ofList entries)

theorem listed_foldl_add (made : Construction) (added : List Element) :
    (added.foldl add made).listed = made.listed.insertAll added := by
  induction added generalizing made with
  | nil => rfl
  | cons entry rest ih =>
    rw [List.foldl_cons, ih, listed]
    rfl

theorem mem_grown {entries added : List Element} {a : Element} :
    a ∈ (grown entries added).listed ↔ a ∈ entries ∨ a ∈ added := by
  rw [grown, listed_foldl_add, listed, FinSet.mem_insertAll, FinSet.mem_ofList]

end Construction

/-- A set or a relation, as it comes about. -/
inductive Collection where
  | set (made : Construction)
  | relation (pairs : List (Element × Element))

namespace Collection

variable {c d : Collection}

/-- The value that comes about. -/
def value : Collection → Value
  | set made => .set made.listed
  | relation pairs => .relation (FinSet.ofList pairs)

/-- How many elements or pairs are kept in the list. -/
def size : Collection → Nat
  | set made => made.indexed.size
  | relation pairs => (FinSet.ofList pairs).size

/-- Sets are equal by their index, relations by which pairs they hold. -/
def same : Collection → Collection → Bool
  | set a, set b => a.indexed.same b.indexed
  | relation pairs, relation others =>
      (FinSet.ofList pairs).members = (FinSet.ofList others).members
  | _, _ => false

/-- What equality and hashing look at: the index of a set, the pairs of a relation. -/
def unordered : Collection → UnorderedValue
  | set made => .set made.indexed.index
  | relation pairs => .relation (FinSet.ofList pairs).members

/-! ## Equality -/

/-- Collections are equal when their values are the same. -/
theorem same_eq (c d : Collection) : c.same d = c.value.same d.value := by
  cases c with
  | set a =>
    cases d with
    | set b => exact a.represents.same_eq b.represents
    | relation _ => rfl
  | relation pairs =>
    cases d with
    | set _ => rfl
    | relation others =>
      rw [same, value, value, Value.same, Bool.eq_iff_iff, decide_eq_true_eq,
        FinSet.same_iff_members_eq]

theorem unordered_eq (c : Collection) : c.unordered = c.value.unordered := by
  cases c with
  | set made => rw [unordered, value, Value.unordered, made.represents.index_eq]
  | relation _ => rfl

theorem same_iff_unordered_eq : c.same d = true ↔ c.unordered = d.unordered := by
  rw [same_eq, Value.same_iff_unordered_eq, unordered_eq, unordered_eq]

theorem equivalence_same : Equivalence fun c d : Collection => c.same d = true := by
  simp only [same_eq]
  exact Value.equivalence_same.comap value

theorem same_set_iff {a b : Construction} :
    same (set a) (set b) = true ↔ ∀ x, x ∈ a.listed ↔ x ∈ b.listed := by
  rw [same_eq, value, value, Value.same, FinSet.same_iff]
  exact Iff.rfl

theorem same_relation_iff {pairs others : List (Element × Element)} :
    same (relation pairs) (relation others) = true ↔
      ∀ pair, pair ∈ FinSet.ofList pairs ↔ pair ∈ FinSet.ofList others := by
  rw [same_eq, value, value, Value.same, FinSet.same_iff]
  exact Iff.rfl

/-- A set made from entries in another order, or with other repeats, stays equal while it grows. -/
theorem same_grown {entries others : List Element} (added : List Element)
    (reordered : ∀ x, x ∈ entries ↔ x ∈ others) :
    same (set (.grown entries added)) (set (.grown others added)) = true := by
  refine same_set_iff.mpr fun x => ?_
  rw [Construction.mem_grown, Construction.mem_grown, reordered]

/-- A relation made from pairs in another order, or with other repeats, is equal. -/
theorem same_relation {pairs others : List (Element × Element)}
    (reordered : ∀ pair, pair ∈ pairs ↔ pair ∈ others) :
    same (relation pairs) (relation others) = true := by
  refine same_relation_iff.mpr fun pair => ?_
  rw [FinSet.mem_ofList, FinSet.mem_ofList, reordered]

/-- Equal collections keep lists of one length. -/
theorem size_eq_of_same (equal : c.same d = true) : c.size = d.size := by
  cases c with
  | set a =>
    cases d with
    | set b =>
      rw [same, a.represents.same_eq b.represents] at equal
      rw [size, size, a.represents.size_eq, b.represents.size_eq]
      exact FinSet.size_eq_of_same equal
    | relation _ => cases equal
  | relation pairs =>
    cases d with
    | set _ => cases equal
    | relation others => exact congrArg Finset.card (of_decide_eq_true equal)

/-! ## Hashing -/

instance : BEq Collection := ⟨same⟩

instance : EquivBEq Collection where
  rfl := equivalence_same.refl _
  symm := equivalence_same.symm
  trans := equivalence_same.trans

section Hashing

variable [Hashable UnorderedValue]

/-- A collection is hashed without its order. -/
instance : Hashable Collection := ⟨fun c => hash c.unordered⟩

/-- Equal collections have one hash. -/
instance : LawfulHashable Collection where
  hash_eq c d equal := by
    show hash c.unordered = hash d.unordered
    rw [same_iff_unordered_eq.mp equal]

end Hashing

/-! ## Counting -/

section Counting

variable {cs ds : List Collection}

/-- The classes that the collections of a list belong to; equal collections belong to one. -/
def classes (cs : List Collection) : Finset (Quotient Value.sameness) :=
  Value.classes (cs.map value)

theorem mem_classes {k : Quotient Value.sameness} :
    k ∈ classes cs ↔ ∃ c ∈ cs, c.value.toClass = k := by
  rw [classes, Value.classes, List.map_map, List.mem_toFinset, List.mem_map]
  rfl

/-- A collection is found in a list when its class is. -/
theorem contains_iff : cs.contains c = true ↔ c.value.toClass ∈ classes cs := by
  rw [List.contains_iff_exists_mem_beq, mem_classes]
  refine exists_congr fun d => and_congr_right fun _ => ?_
  show c.same d = true ↔ _
  rw [same_eq, ← Value.toClass_eq_iff]
  exact eq_comm

theorem classes_subset (found : ∀ c, cs.contains c = true → ds.contains c = true) :
    classes cs ⊆ classes ds := by
  intro k inside
  obtain ⟨c, -, rfl⟩ := mem_classes.mp inside
  exact contains_iff.mp (found c (contains_iff.mpr inside))

/-- A hash table keeps one collection of each class. -/
theorem size_hashSet [Hashable UnorderedValue] (cs : List Collection) :
    (Std.HashSet.ofList cs).size = (classes cs).card := by
  have different : (((Std.HashSet.ofList cs).toList.map value).map Value.toClass).Nodup := by
    rw [List.map_map, List.Nodup, List.pairwise_map]
    refine Std.HashSet.distinct_toList.imp fun {c d} apart sameClass => ?_
    rw [Function.comp_apply, Function.comp_apply, Value.toClass_eq_iff, ← same_eq] at sameClass
    exact Bool.false_ne_true (apart.symm.trans sameClass)
  -- Which collection of a class the table keeps does not matter: any of them finds it.
  have all : classes (Std.HashSet.ofList cs).toList = classes cs := by
    have found (c : Collection) : (Std.HashSet.ofList cs).toList.contains c = cs.contains c := by
      rw [Std.HashSet.contains_toList, Std.HashSet.contains_ofList]
    apply Finset.Subset.antisymm
    · exact classes_subset fun c h => (found c).symm.trans h
    · exact classes_subset fun c h => (found c).trans h
  rw [← Std.HashSet.length_toList, ← List.length_map]
  exact Value.length_eq_card_classes different all

end Counting

/-! ## Equality and hashing together -/

/-- **Equality and hashing of sets and relations are blind to order, and fit together.**  However
collections come about, they are equal when their values are the same.  This is an equivalence: two
sets are equal when their lists hold the same elements, two relations when they hold the same pairs,
and a set is never equal to a relation.  Equal collections have one size and, however members are
hashed, one hash.  Order and repeats of the entries that a collection is made from do not matter,
nor what is added afterwards.  A hash table of collections holds one for each class, as many as the
values have representatives, in whatever order they come.  A relation is read back from its
components with its pairs in their order, and an odd number of components is refused. -/
theorem equality_orderFree_coherent [Hashable UnorderedValue] :
    (∀ c d : Collection, c.same d = c.value.same d.value) ∧
    Equivalence (fun c d : Collection => c.same d = true) ∧
    (∀ a b : Construction, same (set a) (set b) = true ↔
      ∀ x, x ∈ a.indexed.elements ↔ x ∈ b.indexed.elements) ∧
    (∀ pairs others : List (Element × Element),
      same (relation pairs) (relation others) = true ↔
        ∀ pair, pair ∈ FinSet.ofList pairs ↔ pair ∈ FinSet.ofList others) ∧
    (∀ (a : Construction) (pairs : List (Element × Element)),
      same (set a) (relation pairs) = false ∧ same (relation pairs) (set a) = false) ∧
    (∀ c d : Collection, c.same d = true → c.size = d.size ∧ hash c = hash d) ∧
    (∀ entries others added : List Element, (∀ x, x ∈ entries ↔ x ∈ others) →
      same (set (.grown entries added)) (set (.grown others added)) = true) ∧
    (∀ pairs others : List (Element × Element), (∀ pair, pair ∈ pairs ↔ pair ∈ others) →
      same (relation pairs) (relation others) = true) ∧
    (∀ cs : List Collection,
      (Std.HashSet.ofList cs).size = (classes cs).card ∧
      Value.countDistinct (cs.map value) = (Std.HashSet.ofList cs).size ∧
      ∀ ds : List Collection, ds.Perm cs →
        (Std.HashSet.ofList ds).size = (Std.HashSet.ofList cs).size) ∧
    (∀ r : Relation, Relation.ofFlat? r.toFlat = some r) ∧
    ∀ components : List Element, components.length % 2 = 1 →
      Relation.ofFlat? components = none ∧
      ∀ command : Command, command.role? = some .relation → command.args = components →
        command.content = .error (.halfPair components.length) := by
  refine ⟨same_eq, equivalence_same, fun a b => ?_, fun _ _ => same_relation_iff,
    fun _ _ => ⟨rfl, rfl⟩, fun c d equal => ⟨size_eq_of_same equal, hash_eq equal⟩,
    fun _ _ added => same_grown added, fun _ _ => same_relation,
    fun cs => ⟨size_hashSet cs, ?_, ?_⟩,
    Relation.ofFlat?_toFlat, fun components odd => ⟨Relation.ofFlat?_eq_none_iff.mpr odd, ?_⟩⟩
  · rw [same_set_iff, a.represents.elements_eq, b.represents.elements_eq]
    exact Iff.rfl
  · rw [size_hashSet]
    exact Value.countDistinct_eq_card_classes (cs.map value)
  · intro ds reordered
    rw [size_hashSet, size_hashSet, classes, Value.classes_of_perm (reordered.map value), ← classes]
  · rintro command role rfl
    exact content_of_halfPair role odd

/-- Members are hashed by their number, so that sets and relations of one size collide: equal
collections are counted once, the empty set and the empty relation each for itself. -/
theorem equality_orderFree_coherent_colliding :
    let _ : Hashable UnorderedValue := ⟨fun
      | .set members => members.card.toUInt64
      | .relation members => members.card.toUInt64
      | _ => 0⟩
    let listed : Collection := set (.grown ["a", "b", "a"] ["c"])
    let reordered : Collection := set (.grown ["b", "b", "a"] ["c"])
    let noElements : Collection := set (.ofList [])
    let noPairs : Collection := relation []
    let pairs : Collection := relation [("a", "b"), ("b", "a"), ("a", "b")]
    let turned : Collection := relation [("b", "a"), ("a", "b")]
    let all : List Collection := [listed, noElements, pairs, reordered, noPairs, turned]
    (listed.same reordered = true ∧ listed.size = reordered.size ∧ hash listed = hash reordered) ∧
      (noElements.same noPairs = false ∧ hash noElements = hash noPairs) ∧
      pairs.same turned = true ∧
      ((Std.HashSet.ofList all).size = 4 ∧ (Std.HashSet.ofList all.reverse).size = 4) ∧
      Relation.ofFlat? ["a", "b", "a"] = none ∧
      Command.content ⟨"R", ["a", "b", "a"], none⟩ = .error (.halfPair 3) := by
  intro hashing listed reordered noElements noPairs pairs turned all
  obtain ⟨-, -, -, -, apart, alike, grown, ordered, counted, -, refused⟩ :=
    @equality_orderFree_coherent hashing
  have equal : listed.same reordered = true :=
    grown ["a", "b", "a"] ["b", "b", "a"] ["c"] (by simp)
  obtain ⟨-, distinct, permuted⟩ := counted all
  have four : (Std.HashSet.ofList all).size = 4 := distinct.symm.trans (by decide +kernel)
  obtain ⟨none, faulty⟩ := refused ["a", "b", "a"] rfl
  refine ⟨⟨equal, alike _ _ equal⟩, ⟨(apart _ _).1, rfl⟩, ordered _ _ (by simp), ⟨four, ?_⟩, none,
    faulty _ rfl rfl⟩
  exact (permuted all.reverse all.reverse_perm).trans four

end Collection

end RelCalc
