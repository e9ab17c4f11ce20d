/-
  `Proofs.Evaluation.LineMap`: values do not depend on where lines stand.

  A map from the lines of one program to those of another keeps what lines say when it
  takes declarations to equal declarations and calls to calls of the same operation
  whose operands name the images of the lines named before.  The values of the second
  program, pulled back along the map, solve the equations of the first; and since these
  have one solution only, they are the values of the first.  So nothing changes when
  lines are moved, left out, cut off at the end or written several times.
-/
import Mathlib.Tactic.IntervalCases
import RelCalc.Proofs.Evaluation.Lines

set_option autoImplicit false

namespace RelCalc

open Validation

/-! ## Equations in other values -/

section Pullback

variable {catalog : Catalog} {values values' : List Value} {command other : Command} {value : Value}

/-- Operands whose tokens refer to the same values. -/
theorem Referents.of_tokens {tokens tokens' : List String} {operands : List Value}
    (names : List.Forall₂ (fun token token' => ∀ value, referent? values' token' = some value →
      referent? values token = some value) tokens tokens')
    (h : Referents values' tokens' operands) : Referents values tokens operands := by
  unfold Referents at h ⊢
  induction names generalizing operands with
  | nil =>
    obtain rfl := List.forall₂_nil_left_iff.mp h
    exact .nil
  | cons same _ ih =>
    obtain ⟨value, rest, hvalue, hrest, rfl⟩ := List.forall₂_cons_left_iff.mp h
    exact .cons (same value hvalue) (ih hrest)

/-- The equation of a declaration is about its own words only. -/
theorem Equation.of_same_words (h : Equation catalog values' other value)
    (notCall : command.role? ≠ some .call) (role : other.role? = command.role?)
    (args : other.args = command.args) : Equation catalog values command value := by
  cases h with
  | ground hrole => exact args ▸ .ground (role ▸ hrole)
  | set hrole => exact args ▸ .set (role ▸ hrole)
  | relation pairs hrole paired => exact .relation pairs (role ▸ hrole) (args ▸ paired)
  | call _ _ _ _ _ _ hrole => exact absurd (role ▸ hrole) notCall

/-- The equation of a call holds in other values if its operands and the ground set are the same. -/
theorem Equation.of_same_operands {name : String} {tokens tokens' : List String}
    (h : Equation catalog values' other value) (hcommand : command.role? = some .call)
    (hother : other.role? = some .call) (args : command.args = name :: tokens)
    (args' : other.args = name :: tokens') (ground : values.head? = values'.head?)
    (names : List.Forall₂ (fun token token' => ∀ value, referent? values' token' = some value →
      referent? values token = some value) tokens tokens') :
    Equation catalog values command value := by
  cases h with
  | ground role => simp [hother] at role
  | set role => simp [hother] at role
  | relation _ role => simp [hother] at role
  | call name' _ op first operands _ _ found hop hground referents applied =>
    obtain ⟨rfl, rfl⟩ := List.cons.inj (args'.symm.trans found)
    exact .call name tokens op first operands value hcommand args hop (ground.trans hground)
      (Referents.of_tokens names referents) applied

end Pullback

namespace Program

/-! ## Maps of lines -/

/-- A call and its image: the same operation, and operands that name the images of the lines
named. -/
structure MapsCall (image : Nat → Nat) (command other : Command) : Prop where
  role : other.role? = some .call
  args : ∃ name tokens tokens', command.args = name :: tokens ∧ other.args = name :: tokens' ∧
    List.Forall₂ (fun token token' => ∃ n, Text.Denotes token n ∧ Text.Denotes token' (image n))
      tokens tokens'

/-- A map from the lines of one list of commands to those of another that keeps what lines say. -/
structure MapsLines (image : Nat → Nat) (source target : List Command) : Prop where
  /-- The ground sets are declared in the same words. -/
  ground : source.head?.map Command.args = target.head?.map Command.args
  first : image 1 = 1
  declaration : ∀ (line : Nat) (command : Command), atLine? source line = some command →
    declares command.role? = true → ∃ other, atLine? target (image line) = some other ∧
      other.role? = command.role? ∧ other.args = command.args
  call : ∀ (line : Nat) (command : Command), atLine? source line = some command →
    command.role? = some .call → ∃ other, atLine? target (image line) = some other ∧
      MapsCall image command other

/-! ## Values pulled back -/

/-- The values of the images of the first `count` lines. -/
def pulledBack (image : Nat → Nat) (count : Nat) (values : List Value) : List Value :=
  (List.range count).map fun i => (atLine? values (image (i + 1))).getD default

theorem getElem?_pulledBack {image : Nat → Nat} {count : Nat} {values : List Value} {i : Nat}
    {value : Value} (bound : i < count) (found : atLine? values (image (i + 1)) = some value) :
    (pulledBack image count values)[i]? = some value := by
  simp [pulledBack, List.getElem?_range bound, found]

/-- An operand refers to the value that the operand naming the image of its line refers to. -/
theorem referent?_pulledBack {image : Nat → Nat} {count n : Nat} {values : List Value}
    {token token' : String} {value : Value} (read : Text.readNatural token = .ok n)
    (positive : 1 ≤ n) (bound : n ≤ count) (denotes : Text.Denotes token' (image n))
    (referent : referent? values token' = some value) :
    referent? (pulledBack image count values) token = some value := by
  obtain ⟨n', read', found⟩ := referent?_eq_some_iff.mp referent
  obtain rfl : n' = image n := (Text.Denotes.of_read read').unique denotes
  rw [← Nat.sub_add_cancel positive] at found
  have held : (pulledBack image count values)[n - 1]? = some value :=
    getElem?_pulledBack (by omega) found
  exact referent?_eq_some_iff.mpr ⟨n, read, atLine?_eq_some_iff.mpr ⟨positive, held⟩⟩

section Solution

variable {catalog : Catalog} {source target : List Command} {slots slots' : List Slot}
  {kinds kinds' : List Kind} {values values' : List Value} {image : Nat → Nat}

/-- What a line is mapped to: the same declaration, or a call that names the images. -/
theorem MapsLines.exists_image (maps : MapsLines image source target)
    (h : Accepted catalog source slots kinds values)
    (h' : Accepted catalog target slots' kinds' values') {i : Nat} {command : Command}
    (found : source[i]? = some command) :
    ∃ other, atLine? target (image (i + 1)) = some other ∧
      (command.role? ≠ some .call ∧ other.role? = command.role? ∧ other.args = command.args ∨
        command.role? = some .call ∧ MapsCall image command other) := by
  obtain ⟨ground, rest, rfl, hground, -, -, others⟩ := h.exists_ground
  obtain ⟨ground', rest', rfl, hground', -⟩ := h'.exists_ground
  cases i with
  | zero =>
    obtain rfl : ground = command := Option.some.inj found
    have args : ground.args = ground'.args := Option.some.inj maps.ground
    rw [maps.first]
    exact ⟨ground', rfl, .inl ⟨by simp [hground], hground'.trans hground.symm, args.symm⟩⟩
  | succ i =>
    have known := checkKnownRoles_eq_ok_iff.mp h.keepsShape.known_roles command
      (List.mem_of_getElem? found)
    have notGround := others command (List.mem_of_getElem? (List.getElem?_cons_succ ▸ found))
    by_cases role : command.role? = some .call
    · obtain ⟨other, hother, call⟩ := maps.call (i + 2) command found role
      exact ⟨other, hother, .inr ⟨role, call⟩⟩
    · have declared : declares command.role? = true := by
        rw [declares_iff]
        cases hrole : command.role? with
        | none => exact absurd hrole known
        | some known => cases known <;> simp_all
      obtain ⟨other, hother, sameRole, sameArgs⟩ := maps.declaration (i + 2) command found declared
      exact ⟨other, hother, .inl ⟨role, sameRole, sameArgs⟩⟩

/-- The image of a line has a value. -/
theorem MapsLines.exists_image_value (maps : MapsLines image source target)
    (h : Accepted catalog source slots kinds values)
    (h' : Accepted catalog target slots' kinds' values') {i : Nat} (bound : i < source.length) :
    ∃ value, atLine? values' (image (i + 1)) = some value := by
  obtain ⟨other, hother, -⟩ := maps.exists_image h h' (List.getElem?_eq_getElem bound)
  obtain ⟨positive, found⟩ := atLine?_eq_some_iff.mp hother
  obtain ⟨value, hvalue⟩ := h'.exists_value found
  exact ⟨value, atLine?_eq_some_iff.mpr ⟨positive, hvalue⟩⟩

/-- The ground set is pulled back to the ground set. -/
theorem MapsLines.head?_pulledBack (maps : MapsLines image source target)
    (h : Accepted catalog source slots kinds values)
    (h' : Accepted catalog target slots' kinds' values') (nonempty : 0 < source.length) :
    (pulledBack image source.length values').head? = values'.head? := by
  obtain ⟨first, himage⟩ := maps.exists_image_value h h' nonempty
  have hpulled := getElem?_pulledBack nonempty himage
  rw [maps.first] at himage
  rw [List.head?_eq_getElem?, List.head?_eq_getElem?, hpulled]
  exact himage.symm

/-- The values of the target, pulled back, solve the equations of the source. -/
theorem MapsLines.solves (maps : MapsLines image source target)
    (h : Accepted catalog source slots kinds values)
    (h' : Accepted catalog target slots' kinds' values') :
    Solves catalog source (pulledBack image source.length values') := by
  refine ⟨by simp [pulledBack], fun i command value hcommand hvalue => ?_⟩
  have bound : i < source.length := (List.getElem?_eq_some_iff.mp hcommand).1
  obtain ⟨value', himage⟩ := maps.exists_image_value h h' bound
  obtain rfl : value = value' :=
    Option.some.inj (hvalue.symm.trans (getElem?_pulledBack bound himage))
  obtain ⟨other, hother, shape⟩ := maps.exists_image h h' hcommand
  have line := h'.settles.evaluates.solves.line (image (i + 1) - 1) other value
    (atLine?_eq_some_iff.mp hother).2 (atLine?_eq_some_iff.mp himage).2
  rcases shape with ⟨notCall, role, args⟩ | ⟨role, call⟩
  · exact line.of_same_words notCall role args
  · obtain ⟨name, tokens, op, operands, _, applies⟩ := h.exists_applies hcommand role
    obtain ⟨_, _, tokens', args, args', denoted⟩ := call.args
    obtain ⟨rfl, rfl⟩ := List.cons.inj (applies.args.symm.trans args)
    have ground := maps.head?_pulledBack h h' (by omega)
    refine line.of_same_operands role call.role args args' ground ?_
    refine List.Forall₂.imp (fun token token' both => ?_)
      ((List.forall₂_and_left _ _).mpr ⟨applies.numbers, denoted⟩)
    obtain ⟨⟨n, read, positive, before⟩, m, denotes, denotes'⟩ := both
    obtain rfl : n = m := (Text.Denotes.of_read read).unique denotes
    intro operand referent
    exact referent?_pulledBack read positive (by omega) denotes' referent

end Solution

/-- **Values do not depend on line positions.**  Where a map keeps what the lines of one accepted
program say in another, after both have been run every line holds the value of its image. -/
theorem run_of_mapsLines {source target : List Command} {image : Nat → Nat}
    (accepted : validate Catalog.standard source = .ok none)
    (accepted' : validate Catalog.standard target = .ok none)
    (maps : MapsLines image source target) :
    ∃ start done start' done' : Program,
      ofCommands source = .ok start ∧ start.run Catalog.standard = (done, none) ∧
      ofCommands target = .ok start' ∧ start'.run Catalog.standard = (done', none) ∧
      ∀ line : Nat, 1 ≤ line → line ≤ source.length →
        ∃ value, done.valueAt line none = .ok value ∧
          done'.valueAt (image line) none = .ok value := by
  obtain ⟨slots, kinds, values, h⟩ := exists_accepted accepted
  obtain ⟨slots', kinds', values', h'⟩ := exists_accepted accepted'
  refine ⟨_, _, _, _, h.ofCommands_eq, h.settles.run_eq, h'.ofCommands_eq, h'.settles.run_eq, ?_⟩
  intro line positive bound
  have same : pulledBack image source.length values' = values :=
    h.settles.evaluates.eq_of_solves (maps.solves h h')
  obtain ⟨value, himage⟩ := maps.exists_image_value h h' (i := line - 1) (by omega)
  have hvalue : values[line - 1]? = some value :=
    same ▸ getElem?_pulledBack (by omega) himage
  rw [Nat.sub_add_cancel positive] at himage
  exact ⟨value, h.valueAt (atLine?_eq_some_iff.mpr ⟨positive, hvalue⟩), h'.valueAt himage⟩

/-- The sample program with everything behind its first line written twice. -/
def doubledCommands : List Command :=
  [⟨"U", ["a", "b"], some 1⟩, ⟨"R", ["a", "b"], some 2⟩, ⟨"R", ["a", "b"], some 3⟩,
   ⟨"C", ["domain", "3"], some 4⟩, ⟨"C", ["domain", "2"], some 5⟩, ⟨"C", ["card", "05"], some 6⟩,
   ⟨"C", ["card", "4"], some 7⟩]

/-- Where the lines of the doubled program stand in the sample program. -/
def doubledImage (line : Nat) : Nat := [0, 1, 2, 2, 3, 3, 4, 4].getD line 0

theorem mapsLines_doubledCommands : MapsLines doubledImage doubledCommands sampleCommands where
  ground := rfl
  first := rfl
  declaration := by
    intro line command found declared
    have bound : line ≤ 7 := le_length_of_atLine? found
    interval_cases line <;> cases found
    · exact absurd declared (by decide)
    · exact ⟨_, rfl, rfl, rfl⟩
    · exact ⟨_, rfl, rfl, rfl⟩
    all_goals exact absurd declared (by decide)
  call := by
    intro line command found role
    have bound : line ≤ 7 := le_length_of_atLine? found
    interval_cases line <;> cases found
    · exact absurd role (by decide)
    · exact absurd role (by decide)
    · exact absurd role (by decide)
    · exact ⟨_, rfl, rfl, _, _, _, rfl, rfl,
        .cons ⟨3, .of_read (by decide +kernel), .of_read (by decide +kernel)⟩ .nil⟩
    · exact ⟨_, rfl, rfl, _, _, _, rfl, rfl,
        .cons ⟨2, .of_read (by decide +kernel), .of_read (by decide +kernel)⟩ .nil⟩
    · exact ⟨_, rfl, rfl, _, _, _, rfl, rfl,
        .cons ⟨5, .of_read (by decide +kernel), .of_read (by decide +kernel)⟩ .nil⟩
    · exact ⟨_, rfl, rfl, _, _, _, rfl, rfl,
        .cons ⟨4, .of_read (by decide +kernel), .of_read (by decide +kernel)⟩ .nil⟩

theorem run_of_mapsLines_doubledCommands :
    validate Catalog.standard doubledCommands = .ok none ∧
      validate Catalog.standard sampleCommands = .ok none ∧
      MapsLines doubledImage doubledCommands sampleCommands ∧
      ∃ start done start' done' : Program,
        ofCommands doubledCommands = .ok start ∧ start.run Catalog.standard = (done, none) ∧
        ofCommands sampleCommands = .ok start' ∧ start'.run Catalog.standard = (done', none) ∧
        ∀ line : Nat, 1 ≤ line → line ≤ 7 → ∃ value, done.valueAt line none = .ok value ∧
          done'.valueAt (doubledImage line) none = .ok value := by
  have accepted : validate Catalog.standard doubledCommands = .ok none := by decide +kernel
  have accepted' : validate Catalog.standard sampleCommands = .ok none := by decide +kernel
  exact ⟨accepted, accepted', mapsLines_doubledCommands,
    run_of_mapsLines accepted accepted' mapsLines_doubledCommands⟩

end Program

end RelCalc
