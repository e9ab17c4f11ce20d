/-
  `Proofs.Evaluation.Renaming`: values do not depend on names or order.

  Two programs differ by a renaming when their declarations hold the images of each
  other's elements or pairs, in any order, and their calls are the same.  Line after
  line, the values of their runs then correspond: truth values and numbers are the
  same, and sets hold the images of each other's elements.  Where the declarations keep
  the order, so do the values.
-/
import RelCalc.Proofs.Evaluation.LineMap
import RelCalc.Proofs.Renaming.Operations

set_option autoImplicit false

namespace RelCalc

/-- Different entries that correspond are sets that correspond. -/
theorem FinSet.Renamed.of_entries {α β : Type} [DecidableEq α] [DecidableEq β]
    {order : Arrangement} {f : α → β} {entries : List α} {others : List β}
    (distinct : entries.Nodup) (distinct' : others.Nodup)
    (similar : order.Similar (entries.map f) others) :
    (ofList entries).Renamed order f (ofList others) := by
  unfold Renamed
  rwa [toList_ofList_of_nodup distinct, toList_ofList_of_nodup distinct']

/-- Tokens that denote the same numbers refer to entries that stand on the same lines. -/
theorem forall₂_of_referents {R : Value → Value → Prop}
    {values others operands operands' : List Value} {tokens tokens' : List String}
    (related : ∀ n a b, atLine? values n = some a → atLine? others n = some b → R a b)
    (denoted : List.Forall₂ (fun token token' => ∃ n, Text.Denotes token n ∧ Text.Denotes token' n)
      tokens tokens')
    (h : Referents values tokens operands) (h' : Referents others tokens' operands') :
    List.Forall₂ R operands operands' := by
  unfold Referents at h h'
  induction denoted generalizing operands operands' with
  | nil =>
    obtain rfl := List.forall₂_nil_left_iff.mp h
    obtain rfl := List.forall₂_nil_left_iff.mp h'
    exact .nil
  | cons same _ ih =>
    obtain ⟨n, denotes, denotes'⟩ := same
    obtain ⟨a, rest, ha, hrest, rfl⟩ := List.forall₂_cons_left_iff.mp h
    obtain ⟨b, rest', hb, hrest', rfl⟩ := List.forall₂_cons_left_iff.mp h'
    obtain ⟨m, read, found⟩ := referent?_eq_some_iff.mp ha
    obtain ⟨m', read', found'⟩ := referent?_eq_some_iff.mp hb
    obtain rfl : m = n := (Text.Denotes.of_read read).unique denotes
    obtain rfl : m' = m := (Text.Denotes.of_read read').unique denotes'
    exact .cons (related m' a b found found') (ih hrest hrest')

namespace Program

open Validation

/-- Two commands that differ by a renaming of elements, and in the order of what they declare as
far as is allowed. -/
inductive RenamedCommand (order : Arrangement) (f : Element → Element) (command other : Command) :
    Prop where
  /-- The ground set or a set is declared with the images of the elements. -/
  | elements (role : command.role? = some .ground ∨ command.role? = some .set)
      (sameRole : other.role? = command.role?)
      (similar : order.Similar (command.args.map f) other.args)
  /-- A relation is declared with the images of the pairs. -/
  | pairs (given images : List (Element × Element)) (role : command.role? = some .relation)
      (sameRole : other.role? = command.role?) (paired : command.args = Relation.flatten given)
      (paired' : other.args = Relation.flatten images)
      (similar : order.Similar (given.map (Prod.map f f)) images)
  /-- A call names the same operation and the same lines. -/
  | call (role : command.role? = some .call) (same : MapsCall id command other)

/-- Two lists of commands that differ by a renaming, line by line. -/
abbrev RenamedCommands (order : Arrangement) (f : Element → Element)
    (source target : List Command) : Prop :=
  List.Forall₂ (RenamedCommand order f) source target

section Lines

variable {catalog : Catalog} {source target : List Command} {slots slots' : List Slot}
  {kinds kinds' : List Kind} {values values' : List Value} {order : Arrangement}
  {f : Element → Element} {command other : Command} {i : Nat}

/-- The ground sets correspond. -/
theorem RenamedCommands.ground (renamed : RenamedCommands order f source target)
    (h : Accepted catalog source slots kinds values)
    (h' : Accepted catalog target slots' kinds' values') :
    ∃ ground ground' : FinSet Element, values.head? = some (.set ground) ∧
      values'.head? = some (.set ground') ∧ ground.Renamed order f ground' := by
  obtain ⟨first, rest, rfl, role, distinct, held, -⟩ := h.exists_ground
  obtain ⟨first', rest', rfl, role', distinct', held', -⟩ := h'.exists_ground
  refine ⟨_, _, held, held', ?_⟩
  cases (List.forall₂_cons.mp renamed).1 with
  | elements _ _ similar => exact .of_entries distinct distinct' similar
  | pairs _ _ other => simp [role] at other
  | call other => simp [role] at other

/-- On a line with a declaration the values correspond. -/
theorem RenamedCommand.declaration (renamed : RenamedCommand order f command other)
    (notCall : command.role? ≠ some .call) (notGround : command.role? ≠ some .ground)
    (h : Accepted catalog source slots kinds values)
    (h' : Accepted catalog target slots' kinds' values') (found : source[i]? = some command)
    (found' : target[i]? = some other) :
    ∃ value value', values[i]? = some value ∧ values'[i]? = some value' ∧
      value.Renamed order f value' := by
  cases renamed with
  | elements role sameRole similar =>
    have set : command.role? = some .set := role.resolve_left notGround
    obtain ⟨distinct, held⟩ := h.set_value found set
    obtain ⟨distinct', held'⟩ := h'.set_value found' (sameRole.trans set)
    exact ⟨_, _, held, held', .set (.of_entries distinct distinct' similar)⟩
  | pairs given images role sameRole paired paired' similar =>
    obtain ⟨pairs, hpairs, distinct, held⟩ := h.relation_value found role
    obtain ⟨pairs', hpairs', distinct', held'⟩ := h'.relation_value found' (sameRole.trans role)
    obtain rfl : given = pairs := Relation.flatten_injective (paired.symm.trans hpairs)
    obtain rfl : images = pairs' := Relation.flatten_injective (paired'.symm.trans hpairs')
    exact ⟨_, _, held, held', .relation (.of_entries distinct distinct' similar)⟩
  | call role => exact absurd role notCall

/-- On a line with a call the values correspond if they do on all lines before it. -/
theorem RenamedCommands.call (renamed : RenamedCommands order f source target)
    (respects : ∀ op ∈ catalog.entries, op.Respects order f)
    (h : Accepted catalog source slots kinds values)
    (h' : Accepted catalog target slots' kinds' values') (found : source[i]? = some command)
    (found' : target[i]? = some other) (role : command.role? = some .call)
    (same : MapsCall id command other)
    (earlier : ∀ n a b, atLine? (values.take i) n = some a → atLine? (values'.take i) n = some b →
      a.Renamed order f b) :
    ∃ value value', values[i]? = some value ∧ values'[i]? = some value' ∧
      value.Renamed order f value' := by
  obtain ⟨name, tokens, op, operands, value, applies⟩ := h.exists_applies found role
  obtain ⟨name', tokens', op', operands', value', applies'⟩ := h'.exists_applies found' same.role
  obtain ⟨_, _, _, args, args', denoted⟩ := same.args
  obtain ⟨rfl, rfl⟩ := List.cons.inj (applies.args.symm.trans args)
  obtain ⟨rfl, rfl⟩ := List.cons.inj (applies'.args.symm.trans args')
  obtain rfl : op = op' := Option.some.inj (applies.found.symm.trans applies'.found)
  have hoperands : RenamedOperands order f operands operands' :=
    forall₂_of_referents earlier denoted applies.referents applies'.referents
  obtain ⟨ground, ground', hground, hground', grounds⟩ := renamed.ground h h'
  have applied := applies.applied
  have applied' := applies'.applied
  rw [hground] at applied
  rw [hground'] at applied'
  have member : op ∈ catalog.entries := (Catalog.mem_and_name_of_find? applies.found).1
  exact ⟨value, value', applies.held, applies'.held,
    respects op member ground ground' operands operands' value value' grounds applies.kinds
      hoperands applied applied'⟩

/-- On every line the values correspond: by induction on the lines, each call being evaluated on
values of earlier lines. -/
theorem RenamedCommands.exists_values (renamed : RenamedCommands order f source target)
    (respects : ∀ op ∈ catalog.entries, op.Respects order f)
    (h : Accepted catalog source slots kinds values)
    (h' : Accepted catalog target slots' kinds' values') (bound : i < source.length) :
    ∃ value value', values[i]? = some value ∧ values'[i]? = some value' ∧
      value.Renamed order f value' := by
  induction i using Nat.strong_induction_on with
  | h i ih =>
    have bound' : i < target.length := renamed.length_eq ▸ bound
    have found : source[i]? = some source[i] := List.getElem?_eq_getElem bound
    have found' : target[i]? = some target[i] := List.getElem?_eq_getElem bound'
    have line : RenamedCommand order f source[i] target[i] := renamed.get bound bound'
    by_cases role : source[i].role? = some .call
    · cases line with
      | elements other => simp [role] at other
      | pairs _ _ other => simp [role] at other
      | call _ same =>
        refine renamed.call respects h h' found found' role same fun n a b ha hb => ?_
        obtain ⟨positive, ha⟩ := atLine?_eq_some_iff.mp ha
        obtain ⟨-, hb⟩ := atLine?_eq_some_iff.mp hb
        have before : n - 1 < i := by
          have length := (List.getElem?_eq_some_iff.mp ha).1
          rw [List.length_take] at length
          omega
        rw [List.getElem?_take_of_lt before] at ha hb
        obtain ⟨value, value', hvalue, hvalue', related⟩ := ih (n - 1) before (by omega)
        obtain rfl : a = value := Option.some.inj (ha.symm.trans hvalue)
        obtain rfl : b = value' := Option.some.inj (hb.symm.trans hvalue')
        exact related
    · by_cases ground : source[i].role? = some .ground
      · obtain rfl : i = 0 := h.eq_zero_of_ground found ground
        obtain ⟨set, set', hset, hset', related⟩ := renamed.ground h h'
        rw [List.head?_eq_getElem?] at hset hset'
        exact ⟨_, _, hset, hset', .set related⟩
      · exact line.declaration role ground h h' found found'

end Lines

/-- **Values do not depend on names or order.**  Where two accepted programs differ by an injective
renaming, after both have been run the values on every line correspond: truth values and numbers are
the same, and sets hold the images of each other's elements.  If the declarations keep the order,
the values do. -/
theorem run_of_renamedCommands {source target : List Command} {f : Element → Element}
    (inj : Function.Injective f) (accepted : validate Catalog.standard source = .ok none)
    (accepted' : validate Catalog.standard target = .ok none)
    (renamed : RenamedCommands .free f source target) :
    ∃ start done start' done' : Program,
      ofCommands source = .ok start ∧ start.run Catalog.standard = (done, none) ∧
      ofCommands target = .ok start' ∧ start'.run Catalog.standard = (done', none) ∧
      ∀ line : Nat, 1 ≤ line → line ≤ source.length →
        ∃ value value', done.valueAt line none = .ok value ∧
          done'.valueAt line none = .ok value' ∧ value.Renamed .free f value' ∧
          (RenamedCommands .fixed f source target → value.Renamed .fixed f value') := by
  obtain ⟨slots, kinds, values, h⟩ := exists_accepted accepted
  obtain ⟨slots', kinds', values', h'⟩ := exists_accepted accepted'
  refine ⟨_, _, _, _, h.ofCommands_eq, h.settles.run_eq, h'.ofCommands_eq, h'.settles.run_eq, ?_⟩
  intro line positive bound
  have within : line - 1 < source.length := by omega
  obtain ⟨value, value', held, held', related⟩ :=
    renamed.exists_values (Catalog.respects_standard inj) h h' within
  refine ⟨value, value', h.valueAt (atLine?_eq_some_iff.mpr ⟨positive, held⟩),
    h'.valueAt (atLine?_eq_some_iff.mpr ⟨positive, held'⟩), related, fun kept => ?_⟩
  obtain ⟨_, _, again, again', related'⟩ :=
    kept.exists_values (Catalog.respects_standard inj) h h' within
  obtain rfl := Option.some.inj (held.symm.trans again)
  obtain rfl := Option.some.inj (held'.symm.trans again')
  exact related'

/-- The sample program with other names, its ground set declared the other way round. -/
def renamedSample : List Command :=
  [⟨"U", ["xb", "xa"], none⟩, ⟨"R", ["xa", "xb"], none⟩, ⟨"C", ["domain", "2"], none⟩,
   ⟨"C", ["card", "03"], none⟩]

theorem renamedCommands_renamedSample :
    RenamedCommands .free ("x" ++ ·) sampleCommands renamedSample := by
  have same {name token token' : String} {line line' : Option Int} {n : Nat}
      (read : Text.readNatural token = .ok n) (read' : Text.readNatural token' = .ok n) :
      RenamedCommand .free ("x" ++ ·) ⟨"C", [name, token], line⟩ ⟨"C", [name, token'], line'⟩ :=
    .call rfl ⟨rfl, name, [token], [token'], rfl, rfl,
      .cons ⟨n, .of_read read, .of_read read'⟩ .nil⟩
  exact .cons (.elements (.inl rfl) rfl (List.Perm.swap "xa" "xb" []))
    (.cons (.pairs [("a", "b")] [("xa", "xb")] rfl rfl rfl rfl (List.Perm.refl _))
      (.cons (same (n := 2) (by decide +kernel) (by decide +kernel))
        (.cons (same (n := 3) (by decide +kernel) (by decide +kernel)) .nil)))

theorem run_of_renamedCommands_renamedSample :
    Function.Injective (fun name : String => "x" ++ name) ∧
      validate Catalog.standard sampleCommands = .ok none ∧
      validate Catalog.standard renamedSample = .ok none ∧
      RenamedCommands .free ("x" ++ ·) sampleCommands renamedSample ∧
      ∃ start done start' done' : Program,
        ofCommands sampleCommands = .ok start ∧ start.run Catalog.standard = (done, none) ∧
        ofCommands renamedSample = .ok start' ∧ start'.run Catalog.standard = (done', none) ∧
        ∀ line : Nat, 1 ≤ line → line ≤ 4 → ∃ value value', done.valueAt line none = .ok value ∧
          done'.valueAt line none = .ok value' ∧ value.Renamed .free ("x" ++ ·) value' := by
  have inj : Function.Injective (fun name : String => "x" ++ name) := by
    intro s t same
    simpa using same
  have accepted : validate Catalog.standard sampleCommands = .ok none := by decide +kernel
  have accepted' : validate Catalog.standard renamedSample = .ok none := by decide +kernel
  obtain ⟨start, done, start', done', hstart, hrun, hstart', hrun', lines⟩ :=
    run_of_renamedCommands inj accepted accepted' renamedCommands_renamedSample
  refine ⟨inj, accepted, accepted', renamedCommands_renamedSample, start, done, start', done',
    hstart, hrun, hstart', hrun', fun line positive bound => ?_⟩
  obtain ⟨value, value', hvalue, hvalue', related, -⟩ := lines line positive bound
  exact ⟨value, value', hvalue, hvalue', related⟩

end Program

end RelCalc
