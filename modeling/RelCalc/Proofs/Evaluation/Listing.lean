/-
  `Proofs.Evaluation.Listing`: the lines of a listing tell their values.

  A line is decoded by its first word: the words after `U` or `S` are the elements of a
  set, those after `R` the components of a relation, and a line without such a letter is
  a truth value or a number.  The lines that an accepted program prints consist of words
  and are decoded to the values they stand for, because elements hold no white space
  and no numeral is a letter or a truth value.  So a listing determines all values, and
  it is a text that is split into commands again.
-/
import RelCalc.Proofs.Evaluation.Containment

set_option autoImplicit false

namespace RelCalc

namespace Value

/-- The number that a run of ASCII digits spells. -/
def ofNumeral? (numeral : String) : Option Value :=
  (Text.plainDigits? numeral.toList).map fun digits => .int (Text.ofDigits digits)

/-- The value that the words of a line stand for, by the first of them. -/
def ofWords? : List String → Option Value
  | [] => none
  | "U" :: elements => some (.set (FinSet.ofList elements))
  | "S" :: elements => some (.set (FinSet.ofList elements))
  | "R" :: components => (Relation.ofFlat? components).map .relation
  | "true" :: _ => some (.bool true)
  | "false" :: _ => some (.bool false)
  | numeral :: _ => ofNumeral? numeral

/-- The value that a line stands for. -/
def ofLine? (line : String) : Option Value :=
  ofWords? ((Source.wordsOf line.toList).map String.ofList)

/-- A token that denotes a number spells it. -/
theorem ofNumeral?_of_denotes {token : String} {n : Nat} (h : Text.Denotes token n) :
    ofNumeral? token = some (.int n) := by
  obtain ⟨nonempty, digits, value⟩ := h
  rw [ofNumeral?, Text.plainDigits?_eq_some_iff.mpr ⟨nonempty, digits, rfl⟩, Option.map_some,
    Text.ofDigits_digitValues, value]

/-- A numeral is neither a letter nor a truth value. -/
theorem ofWords?_of_denotes {token : String} {n : Nat} (h : Text.Denotes token n) :
    ofWords? [token] = some (.int n) := by
  have letters : ∀ word ∈ ["U", "S", "R", "true", "false"],
      word.toList.all Char.isDigit = false := by decide
  have others : token ∉ ["U", "S", "R", "true", "false"] := by
    intro member
    have digits := List.all_eq_true.mpr h.2.1
    rw [letters token member] at digits
    cases digits
  simp only [List.mem_cons, not_or] at others
  obtain ⟨notGround, notSet, notRelation, notTrue, notFalse, -⟩ := others
  unfold ofWords?
  split
  case h_1 same => cases same
  case h_2 same => exact absurd (List.cons.inj same).1 notGround
  case h_3 same => exact absurd (List.cons.inj same).1 notSet
  case h_4 same => exact absurd (List.cons.inj same).1 notRelation
  case h_5 same => exact absurd (List.cons.inj same).1 notTrue
  case h_6 same => exact absurd (List.cons.inj same).1 notFalse
  case h_7 same =>
    obtain rfl := (List.cons.inj same).1
    exact ofNumeral?_of_denotes h

end Value

/-! ## Lines that spell values -/

/-- A line spells a value: it consists of words, and these are decoded to the value. -/
def Spells (line : String) (value : Value) : Prop :=
  ∃ first rest, line = Text.unwords (first :: rest) ∧
    (∀ word ∈ first :: rest, Source.IsWord word) ∧ Value.ofWords? (first :: rest) = some value

namespace Spells

open Source

variable {line : String} {value : Value} {elements : FinSet Element} {pairs : Relation}
  {ground : FinSet Element}

/-- The line is decoded to the value. -/
theorem ofLine?_eq (h : Spells line value) : Value.ofLine? line = some value := by
  obtain ⟨first, rest, rfl, each, decoded⟩ := h
  have words : ((first :: rest).map String.toList).map String.ofList = first :: rest := by
    simp [Function.comp_def]
  rw [Value.ofLine?, wordsOf_unwords each, words, decoded]

/-- The line is one line. -/
theorem newline_not_mem (h : Spells line value) : '\n' ∉ line.toList := by
  obtain ⟨first, rest, rfl, each, -⟩ := h
  exact not_mem_unwords each (by decide) (by decide)

/-- The line is the line of a command. -/
theorem exists_command (h : Spells line value) : ∃ command : Command, command.text = line ∧
    ∀ word ∈ command.word :: command.args, IsWord word := by
  obtain ⟨first, rest, rfl, each, -⟩ := h
  exact ⟨⟨first, rest, none⟩, rfl, each⟩

/-- A set of words is spelled after the letter of either declaration of sets. -/
theorem of_set {role : Role} (declares : role = .ground ∨ role = .set)
    (words : ∀ a ∈ elements, IsWord a) :
    Spells (letterLine role.letter elements.body) (.set elements) := by
  refine ⟨role.letter, elements.toList, letterLine_unwords _ words,
    List.forall_mem_cons.mpr ⟨isWord_letter role, words⟩, ?_⟩
  have restored : some (Value.set (FinSet.ofList elements.toList)) = some (.set elements) := by
    rw [FinSet.ofList_toList]
  rcases declares with rfl | rfl
  · exact restored
  · exact restored

/-- A relation between words is spelled after its letter. -/
theorem of_relation (words : ∀ pair ∈ pairs, IsWord pair.1 ∧ IsWord pair.2) :
    Spells (letterLine Role.relation.letter (Relation.body pairs)) (.relation pairs) := by
  have each : ∀ component ∈ Relation.toFlat pairs, IsWord component := by
    intro component member
    obtain ⟨pair, inside, place⟩ := List.mem_flatMap.mp member
    obtain ⟨first, second⟩ := words pair inside
    rcases List.mem_pair.mp place with rfl | rfl
    · exact first
    · exact second
  refine ⟨Role.relation.letter, Relation.toFlat pairs, letterLine_unwords _ each,
    List.forall_mem_cons.mpr ⟨isWord_letter .relation, each⟩, ?_⟩
  show (Relation.ofFlat? _).map Value.relation = _
  rw [Relation.ofFlat?_toFlat]
  rfl

/-- A truth value is spelled by its word. -/
theorem of_bool (truth : Bool) : Spells (Value.bool truth).text (.bool truth) := by
  cases truth
  · exact ⟨"false", [], rfl, List.forall_mem_singleton.mpr (isWord_of_isAlphanum (by decide)
      (List.all_eq_true.mp (by decide))), rfl⟩
  · exact ⟨"true", [], rfl, List.forall_mem_singleton.mpr (isWord_of_isAlphanum (by decide)
      (List.all_eq_true.mp (by decide))), rfl⟩

/-- A natural number is spelled by its numeral. -/
theorem of_nat (n : Nat) : Spells (Value.int n).text (.int n) := by
  have denotes := Text.denotes_toString n
  exact ⟨toString n, [], rfl, List.forall_mem_singleton.mpr (isWord_of_denotes denotes),
    Value.ofWords?_of_denotes denotes⟩

/-- A value within a set of words prints a line that spells it. -/
theorem of_within (words : ∀ a ∈ ground, IsWord a) (within : value.Within ground) :
    Spells value.text value := by
  cases value with
  | set elements =>
    exact of_set (.inr rfl) fun a member => words a (Value.within_set_iff.mp within a member)
  | relation pairs =>
    refine of_relation fun pair member => ?_
    obtain ⟨first, second⟩ := Value.within_relation_iff.mp within pair member
    exact ⟨words _ first, words _ second⟩
  | bool truth => exact of_bool truth
  | int number =>
    obtain ⟨n, rfl⟩ := Int.eq_ofNat_of_zero_le within.1
    exact of_nat n

/-- So does everything that a line of a program can hold, if its value is within a set of words. -/
theorem of_content {content : Content} (words : ∀ a ∈ ground, IsWord a)
    (held : content.value? = some value) (within : value.Within ground) :
    Spells content.text value := by
  cases content with
  | ground elements =>
    obtain rfl : .set elements = value := Option.some.inj held
    exact of_set (.inl rfl) fun a member => words a (Value.within_set_iff.mp within a member)
  | set elements =>
    obtain rfl : .set elements = value := Option.some.inj held
    exact of_within words within
  | relation pairs =>
    obtain rfl : .relation pairs = value := Option.some.inj held
    exact of_within words within
  | call => cases held
  | result name value' =>
    obtain rfl : value' = value := Option.some.inj held
    exact of_within words within

end Spells

/-- Lines that spell values are the lines of commands, which they are split into. -/
theorem exists_commands_of_spells {lines : List String} {values : List Value}
    (spelled : List.Forall₂ Spells lines values) :
    ∃ commands, Source.read (Text.unlines lines) = .ok commands ∧
      commands.map Command.text = lines := by
  have chosen : ∃ printed : List Command, printed.map Command.text = lines ∧
      ∀ command ∈ printed, ∀ word ∈ command.word :: command.args, Source.IsWord word := by
    induction spelled with
    | nil => exact ⟨[], rfl, by simp⟩
    | cons line _ ih =>
      obtain ⟨command, text, words⟩ := line.exists_command
      obtain ⟨printed, texts, each⟩ := ih
      exact ⟨command :: printed, by rw [List.map_cons, text, texts],
        List.forall_mem_cons.mpr ⟨words, each⟩⟩
  obtain ⟨printed, rfl, each⟩ := chosen
  refine ⟨Source.relined printed, Source.read_print each, ?_⟩
  have fst : (printed.zipIdx 1).map Prod.fst = printed := List.zipIdx_map_fst 1 printed
  conv_rhs => rw [← fst]
  rw [Source.relined, List.map_map, List.map_map]
  rfl

/-! ## The listing of a run -/

namespace Program

open Outcome Validation

variable {slots : List Slot} {kinds : List Kind} {values : List Value} {commands : List Command}

/-- A text is loaded, and the run of all calls ends with a program. -/
def RunsTo (text : String) (done : Program) : Prop :=
  ∃ start, load text = .ok start ∧ start.run Catalog.standard = (done, none)

/-- Every line that an accepted program prints in the end spells the value of its slot. -/
theorem Accepted.spells (h : Accepted Catalog.standard commands slots kinds values) :
    List.Forall₂ Spells ((settleAll slots values).map Slot.text) values := by
  obtain ⟨ground, rest, rfl, -⟩ := h.exists_ground
  have words : ∀ a ∈ FinSet.ofList ground.args, Source.IsWord a := fun a member =>
    h.isWord_of_ground a (FinSet.mem_ofList.mp member)
  have held : List.Forall₂ (fun value (slot : Slot) => slot.value? = some value) values
      (settleAll slots values) := by
    have same : List.Forall₂ Eq ((settleAll slots values).map Slot.value?) (values.map some) := by
      rw [List.forall₂_eq_eq_eq]
      exact h.settles.holds
    exact (List.forall₂_map_right_iff.mp (List.forall₂_map_left_iff.mp same)).flip
  have within := h.within Catalog.staysWithin_standard
  refine List.forall₂_map_left_iff.mpr ?_
  refine List.Forall₂.flip (((List.forall₂_and_left _ _).mpr ⟨within, held⟩).imp ?_)
  rintro value slot ⟨inside, holds⟩
  exact .of_content words holds inside

/-- A text that is run to its end is that of accepted commands, which are settled then. -/
theorem RunsTo.exists_accepted {text : String} {done : Program} (ran : RunsTo text done) :
    ∃ commands slots kinds values, Source.read text = .ok commands ∧
      Accepted Catalog.standard commands slots kinds values ∧ done = ⟨settleAll slots values⟩ := by
  obtain ⟨start, loaded, ran⟩ := ran
  obtain ⟨commands, slots, kinds, values, found, rfl, h⟩ := exists_read_of_load loaded
  rw [h.settles.run_eq] at ran
  exact ⟨commands, slots, kinds, values, found, h, (Prod.mk.inj ran).1.symm⟩

/-- Its lines spell its values. -/
theorem RunsTo.exists_values {text : String} {done : Program} (ran : RunsTo text done) :
    ∃ values : List Value, done.slots.map Slot.value? = values.map some ∧
      List.Forall₂ Spells done.listing values := by
  obtain ⟨commands, slots, kinds, values, -, h, rfl⟩ := ran.exists_accepted
  exact ⟨values, h.settles.holds, h.spells⟩

/-- There is one line for each command. -/
theorem RunsTo.length_listing {text : String} {done : Program} (ran : RunsTo text done)
    (found : Source.read text = .ok commands) : done.listing.length = commands.length := by
  obtain ⟨commands', slots, kinds, values, found', h, rfl⟩ := ran.exists_accepted
  obtain rfl : commands' = commands := Except.ok.inj (found'.symm.trans found)
  rw [← h.length_values]
  exact h.spells.length_eq

/-- At least the ground set is listed. -/
theorem RunsTo.listing_ne_nil {text : String} {done : Program} (ran : RunsTo text done) :
    done.listing ≠ [] := by
  obtain ⟨commands, slots, kinds, values, found, h, -⟩ := ran.exists_accepted
  obtain ⟨ground, rest, rfl, -⟩ := h.exists_ground
  intro empty
  have length := ran.length_listing found
  rw [empty] at length
  cases length

/-- All calls are evaluated when the run of all calls stops at none. -/
theorem evaluateAll_eq_ok_iff {p done : Program} {catalog : Catalog} :
    p.evaluateAll catalog = .ok done ↔ p.run catalog = (done, none) := by
  unfold evaluateAll
  split
  · rename_i ended ran
    rw [ran, Except.ok.injEq, Prod.mk.injEq, and_iff_left rfl]
  · rename_i stopped fault ran
    simp [ran]

/-- A text that prints lines is run to a program with these lines. -/
theorem runText_eq_ok_iff {text : String} {lines : List String} :
    runText text = .ok lines ↔ ∃ done, RunsTo text done ∧ done.listing = lines := by
  simp only [runText, bind_eq_ok_iff, pure_eq_ok_iff, evaluateAll_eq_ok_iff, RunsTo]
  constructor
  · rintro ⟨start, loaded, done, ran, same⟩
    exact ⟨done, ⟨start, loaded, ran⟩, same⟩
  · rintro ⟨done, ⟨start, loaded, ran⟩, same⟩
    exact ⟨start, loaded, done, ran, same⟩

/-- **A listing loses no information.**  Where a text prints lines, each line is decoded to the
value that its slot holds after the run.  So whatever text prints the same lines holds the same
values.  The lines together are a text that is split into one command for each of them. -/
theorem listing_determines_values {text : String} {lines : List String}
    (printed : runText text = .ok lines) :
    ∃ (done : Program) (values : List Value), RunsTo text done ∧ done.listing = lines ∧
      done.slots.map Slot.value? = values.map some ∧ lines.map Value.ofLine? = values.map some ∧
      (∀ (other : String) (done' : Program), RunsTo other done' → done'.listing = lines →
        done'.slots.map Slot.value? = values.map some) ∧
      ∃ commands, Source.read (Text.unlines lines) = .ok commands ∧
        commands.map Command.text = lines := by
  have decoded {done : Program} {values : List Value}
      (spelled : List.Forall₂ Spells done.listing values) :
      done.listing.map Value.ofLine? = values.map some :=
    (map_eq_of_forall₂ spelled fun _ _ line => line.ofLine?_eq.symm).symm
  obtain ⟨done, ran, rfl⟩ := runText_eq_ok_iff.mp printed
  obtain ⟨values, held, spelled⟩ := ran.exists_values
  refine ⟨done, values, ran, rfl, held, decoded spelled, fun other done' ran' same => ?_,
    exists_commands_of_spells spelled⟩
  obtain ⟨values', held', spelled'⟩ := ran'.exists_values
  rw [held', ← decoded spelled', same, decoded spelled]

/-- A set, a relation, the domain of the relation and its size are read off four lines. -/
theorem listing_determines_values_chainText :
    runText Session.chainText = .ok ["U a b", "R a b", "S a", "1"] ∧
      ∃ done, RunsTo Session.chainText done ∧ done.slots.map Slot.value? =
        [some (.set (FinSet.ofList ["a", "b"])), some (.relation (FinSet.ofList [("a", "b")])),
          some (.set (FinSet.ofList ["a"])), some (.int 1)] := by
  have printed : runText Session.chainText = .ok ["U a b", "R a b", "S a", "1"] := by decide +kernel
  obtain ⟨done, values, ran, -, held, decoded, -⟩ := listing_determines_values printed
  refine ⟨printed, done, ran, ?_⟩
  rw [held, ← decoded]
  decide +kernel

end Program

end RelCalc
