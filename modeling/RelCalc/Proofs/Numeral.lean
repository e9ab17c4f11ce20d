/-
  `Proofs.Numeral`: which numbers tokens denote.

  A token denotes a number when it is a non-empty run of ASCII digits and the
  number is their positional value.  The strict reader reads exactly these tokens,
  up to the bound on digits, and on what it reads the lenient reader agrees with
  it: so the two sides that read operands, the check and the program, never read
  different numbers.  A positive number is printed as the token that denotes it and has
  no leading zeros; and every number that is read is one that can be written again.
-/
import Mathlib.Algebra.Group.Nat.Defs
import Mathlib.Data.List.Induction
import Mathlib.Data.List.TakeWhile
import RelCalc.Proofs.Outcome
import RelCalc.Program.Slot

set_option autoImplicit false

namespace RelCalc.Text

/-- A token denotes a number: it is a non-empty run of ASCII digits with that value. -/
def Denotes (token : String) (n : Nat) : Prop :=
  token.toList ≠ [] ∧ (∀ c ∈ token.toList, c.isDigit = true) ∧
    Nat.ofDigitChars 10 token.toList 0 = n

/-- A token denotes one number at most. -/
theorem Denotes.unique {token : String} {n m : Nat} (h : Denotes token n) (h' : Denotes token m) :
    n = m := h.2.2.symm.trans h'.2.2

/-- The decimal spelling of a number denotes it. -/
theorem denotes_toString (n : Nat) : Denotes (toString n) n := by
  unfold Denotes
  rw [Nat.toString_eq_ofList_toDigits, String.toList_ofList]
  refine ⟨Nat.toDigits_ne_nil, fun c member => ?_, Nat.ofDigitChars_ten_toDigits⟩
  exact Nat.isDigit_of_mem_toDigits (by decide) (by decide) member

/-! ## Single digits -/

/-- The code points of the ASCII digits. -/
theorem isDigit_iff {c : Char} : c.isDigit = true ↔ 0x30 ≤ c.toNat ∧ c.toNat ≤ 0x39 := by
  simp only [Char.isDigit, Bool.and_eq_true, decide_eq_true_eq, ge_iff_le]
  exact Iff.rfl

/-- The strict reader knows the ASCII digits. -/
theorem asciiDigit?_eq_some_iff {c : Char} {d : Nat} :
    asciiDigit? c = some d ↔ c.isDigit = true ∧ c.toNat - 0x30 = d := by
  simp only [asciiDigit?, Option.ite_none_right_eq_some, Option.some.injEq, Bool.and_eq_true,
    decide_eq_true_eq, isDigit_iff]
  exact Iff.rfl

/-- The digit zero of ASCII heads the table, so an ASCII digit is found there. -/
theorem decimalDigit?_of_isDigit {c : Char} (h : c.isDigit = true) :
    decimalDigit? c = some (c.toNat - 0x30) := by
  obtain ⟨lower, upper⟩ := isDigit_iff.mp h
  have found : digitZeros.find? (fun start => start ≤ c.toNat && c.toNat < start + 10) =
      some 0x30 := by
    apply List.find?_cons_of_pos
    simp only [Bool.and_eq_true, decide_eq_true_eq]
    omega
  rw [decimalDigit?, found, Option.map_some]

/-- A digit is written inside a numeral. -/
theorem isNumeralChar_of_isDigit {c : Char} (h : c.isDigit = true) : isNumeralChar c = true := by
  simp [isNumeralChar, decimalDigit?_of_isDigit h]

/-- A digit is no white space. -/
theorem isPadding_of_isDigit {c : Char} (h : c.isDigit = true) : isPadding c = false := by
  obtain ⟨lower, upper⟩ := isDigit_iff.mp h
  have notBlank : isBlank c = false := by
    rw [Bool.eq_false_iff]
    intro blank
    simp only [isBlank, CharSet.contains_iff, whiteSpace, List.mem_cons, List.not_mem_nil,
      or_false, exists_eq_or_imp, exists_eq_left] at blank
    omega
  simp [isPadding, notBlank]

/-! ## Runs of digits -/

/-- The values of the digits of a run. -/
def digitValues (text : List Char) : List Nat := text.map fun c => c.toNat - 0x30

/-- Digit by digit, a run of digits is read as its values. -/
theorem mapM_asciiDigit?_eq_some_iff {text : List Char} {digits : List Nat} :
    text.mapM asciiDigit? = some digits ↔
      (∀ c ∈ text, c.isDigit = true) ∧ digitValues text = digits := by
  induction text generalizing digits with
  | nil =>
    constructor
    · intro h
      cases h
      exact ⟨by simp, rfl⟩
    · rintro ⟨_, rfl⟩
      rfl
  | cons c rest ih =>
    simp only [List.mapM_cons, Option.bind_eq_bind, Option.pure_def, Option.bind_eq_some_iff,
      asciiDigit?_eq_some_iff, ih, Option.some.injEq, digitValues, List.map_cons,
      List.forall_mem_cons]
    constructor
    · rintro ⟨d, ⟨hc, rfl⟩, ds, ⟨hrest, rfl⟩, rfl⟩
      exact ⟨⟨hc, hrest⟩, rfl⟩
    · rintro ⟨⟨hc, hrest⟩, rfl⟩
      exact ⟨_, ⟨hc, rfl⟩, _, ⟨hrest, rfl⟩, rfl⟩

/-- A text has plain digits when it is a non-empty run of ASCII digits. -/
theorem plainDigits?_eq_some_iff {text : List Char} {digits : List Nat} :
    plainDigits? text = some digits ↔
      text ≠ [] ∧ (∀ c ∈ text, c.isDigit = true) ∧ digitValues text = digits := by
  simp only [plainDigits?, Option.ite_none_left_eq_some, List.isEmpty_iff,
    mapM_asciiDigit?_eq_some_iff, ne_eq]

/-- The value of a run is its positional value. -/
theorem ofDigits_digitValues (text : List Char) :
    ofDigits (digitValues text) = Nat.ofDigitChars 10 text 0 := by
  simp [ofDigits, digitValues, Nat.ofDigitChars_eq_foldl, List.foldl_map]

/-! ## The strict reader -/

/-- The strict reader reads the tokens that denote a number and have few enough digits. -/
theorem readNatural_eq_ok_iff {token : String} {n : Nat} :
    readNatural token = .ok n ↔ Denotes token n ∧ token.length ≤ maxDigits := by
  have length : (digitValues token.toList).length = token.length := by
    rw [digitValues, List.length_map, String.length_toList]
  unfold readNatural
  split
  · rename_i refused
    simp only [reduceCtorEq, false_iff, not_and]
    rintro ⟨nonempty, digits, _⟩
    rw [plainDigits?_eq_some_iff.mpr ⟨nonempty, digits, rfl⟩] at refused
    simp at refused
  · rename_i values found
    obtain ⟨nonempty, digits, rfl⟩ := plainDigits?_eq_some_iff.mp found
    simp only [boundedOfDigits, length, ofDigits_digitValues, Denotes]
    split
    · simp_all
    · simp_all

/-- A token denotes the number that it is read as. -/
theorem Denotes.of_read {token : String} {n : Nat} (h : readNatural token = .ok n) :
    Denotes token n := (readNatural_eq_ok_iff.mp h).1

/-- A token that is short enough is refused only if it denotes no number. -/
theorem readNatural_error_of_short {token : String} {fault : NumeralFault}
    (short : token.length ≤ maxDigits) (refused : readNatural token = .error fault) :
    fault = .malformed ∧ ∀ n, ¬ Denotes token n := by
  have none (n : Nat) : ¬ Denotes token n := by
    intro denotes
    rw [readNatural_eq_ok_iff.mpr ⟨denotes, short⟩] at refused
    cases refused
  refine ⟨?_, none⟩
  unfold readNatural at refused
  split at refused
  · exact (Except.error.inj refused).symm
  · rename_i values found
    obtain ⟨nonempty, digits, -⟩ := plainDigits?_eq_some_iff.mp found
    exact absurd ⟨nonempty, digits, rfl⟩ (none _)

/-- A token is too long when it denotes a number and has too many characters. -/
theorem readNatural_eq_tooLong_iff {token : String} {digits : Nat} :
    readNatural token = .error (.tooLong digits) ↔
      (∃ n, Denotes token n) ∧ maxDigits < token.length ∧ token.length = digits := by
  have length : (digitValues token.toList).length = token.length := by
    rw [digitValues, List.length_map, String.length_toList]
  unfold readNatural
  split
  · rename_i refused
    constructor
    · nofun
    · rintro ⟨⟨n, nonempty, isDigits, -⟩, -⟩
      rw [plainDigits?_eq_some_iff.mpr ⟨nonempty, isDigits, rfl⟩] at refused
      cases refused
  · rename_i values found
    obtain ⟨nonempty, isDigits, rfl⟩ := plainDigits?_eq_some_iff.mp found
    have denotes : ∃ n, Denotes token n := ⟨_, nonempty, isDigits, rfl⟩
    unfold boundedOfDigits
    rw [length]
    split
    · rename_i short
      exact ⟨nofun, fun h => absurd h.2.1 (Nat.not_lt.mpr short)⟩
    · rename_i long
      rw [Except.error.injEq, NumeralFault.tooLong.injEq, and_iff_right denotes,
        and_iff_right (Nat.lt_of_not_le long)]

/-! ## Leading zeros -/

/-- A token without its leading zeros. -/
def trimZeros (token : String) : String := String.ofList (token.toList.dropWhile (· = '0'))

/-- An ASCII digit is the digit of its value. -/
theorem digitChar_of_isDigit {c : Char} (h : c.isDigit = true) :
    Nat.digitChar (c.toNat - 0x30) = c := by
  obtain ⟨lower, upper⟩ := isDigit_iff.mp h
  rw [← Char.ofNat_toNat c]
  generalize c.toNat = code at lower upper
  obtain ⟨d, rfl⟩ := Nat.exists_eq_add_of_le lower
  have digit : d < 10 := by omega
  clear lower upper
  revert d
  decide

/-- Zeros in front do not change the value of a run. -/
theorem ofDigitChars_dropWhile_zero (text : List Char) :
    Nat.ofDigitChars 10 (text.dropWhile (· = '0')) 0 = Nat.ofDigitChars 10 text 0 := by
  induction text with
  | nil => rfl
  | cons c rest ih =>
    by_cases zero : c = '0'
    · subst zero
      rw [List.dropWhile_cons_of_pos (by decide), ih, Nat.ofDigitChars_cons]
      rfl
    · rw [List.dropWhile_cons_of_neg (by simpa using zero)]

/-- A run of digits that does not start with a zero is the decimal spelling of its value. -/
theorem toDigits_ofDigitChars {text : List Char} (nonempty : text ≠ [])
    (digits : ∀ c ∈ text, c.isDigit = true) (leading : text.head? ≠ some '0') :
    Nat.toDigits 10 (Nat.ofDigitChars 10 text 0) = text := by
  induction text using List.reverseRecOn with
  | nil => exact absurd rfl nonempty
  | append_singleton start c ih =>
    obtain ⟨before, last⟩ := List.forall_mem_append.mp digits
    have digit : c.isDigit = true := last c List.mem_cons_self
    obtain ⟨lower, upper⟩ := isDigit_iff.mp digit
    have small : c.toNat - 0x30 < 10 := by omega
    have spelled : Nat.toDigits 10 (c.toNat - 0x30) = [c] := by
      rw [Nat.toDigits_of_lt_base small, digitChar_of_isDigit digit]
    have value : Nat.ofDigitChars 10 (start ++ [c]) 0 =
        10 * Nat.ofDigitChars 10 start 0 + (c.toNat - 0x30) := by
      rw [Nat.ofDigitChars_append, Nat.ofDigitChars_cons, Nat.ofDigitChars_nil]
      rfl
    rw [value]
    by_cases single : start = []
    · subst single
      rw [Nat.ofDigitChars_nil, Nat.mul_zero, Nat.zero_add, spelled]
      rfl
    · have same : Nat.toDigits 10 (Nat.ofDigitChars 10 start 0) = start := by
        refine ih single before ?_
        rwa [List.head?_append_of_ne_nil _ single] at leading
      have positive : 0 < Nat.ofDigitChars 10 start 0 := by
        refine Nat.pos_of_ne_zero fun zero => leading ?_
        rw [zero] at same
        rw [← same]
        rfl
      rw [← Nat.toDigits_append_toDigits (by decide) positive small, same, spelled]

/-- Without its leading zeros, a token denotes the same positive number. -/
theorem Denotes.trimZeros {token : String} {n : Nat} (h : Denotes token n) (positive : 1 ≤ n) :
    Denotes (trimZeros token) n := by
  obtain ⟨-, digits, value⟩ := h
  have trimmed := ofDigitChars_dropWhile_zero token.toList
  rw [value] at trimmed
  unfold Text.trimZeros Denotes
  rw [String.toList_ofList]
  refine ⟨fun empty => ?_, fun c member => digits c (List.dropWhile_subset _ member), trimmed⟩
  rw [empty, Nat.ofDigitChars_nil] at trimmed
  omega

/-- A positive number is printed as any token that denotes it, without leading zeros. -/
theorem Denotes.trimZeros_eq {token : String} {n : Nat} (h : Denotes token n) (positive : 1 ≤ n) :
    Text.trimZeros token = toString n := by
  obtain ⟨nonempty, digits, value⟩ := h.trimZeros positive
  have leading : (Text.trimZeros token).toList.head? ≠ some '0' := by
    intro zero
    have kept := List.head?_dropWhile_not (· = '0') token.toList
    rw [Text.trimZeros, String.toList_ofList] at zero
    rw [zero] at kept
    simp at kept
  have spelled := toDigits_ofDigitChars nonempty digits leading
  rw [value] at spelled
  rw [Nat.toString_eq_ofList_toDigits, spelled, String.ofList_toList]

/-- A token that is read as a positive number is read so without its leading zeros. -/
theorem readNatural_trimZeros {token : String} {n : Nat} (h : readNatural token = .ok n)
    (positive : 1 ≤ n) : readNatural (trimZeros token) = .ok n := by
  obtain ⟨denotes, short⟩ := readNatural_eq_ok_iff.mp h
  refine readNatural_eq_ok_iff.mpr ⟨denotes.trimZeros positive, le_trans ?_ short⟩
  rw [← String.length_toList, ← String.length_toList, trimZeros, String.toList_ofList]
  exact (List.dropWhile_suffix _).length_le

/-! ## The lenient reader -/

/-- The digits of a run are grouped digits: it holds no underscore. -/
theorem groupedDigits?_of_digits {text : List Char} (nonempty : text ≠ [])
    (digits : ∀ c ∈ text, c.isDigit = true) :
    groupedDigits? text = some (digitValues text) := by
  fun_induction groupedDigits? text with
  | case1 => exact absurd rfl nonempty
  | case2 c => simp [decimalDigit?_of_isDigit (digits c (by simp)), digitValues]
  | case3 c rest ih =>
    have underscore : ('_').isDigit = true := digits '_' (by simp)
    exact absurd underscore (by decide)
  | case4 c rest single _ ih =>
    have hrest : rest ≠ [] := fun empty => single empty
    have read := ih hrest fun d hd => digits d (List.mem_cons_of_mem c hd)
    rw [decimalDigit?_of_isDigit (digits c (by simp)), read]
    rfl

/-- The lenient reader reads a run of digits as a number without a sign. -/
theorem readMagnitude_of_digits {text : List Char} (nonempty : text ≠ [])
    (digits : ∀ c ∈ text, c.isDigit = true) (short : text.length ≤ maxDigits) :
    readMagnitude text = .ok (Nat.ofDigitChars 10 text 0) := by
  have run : ∀ c ∈ text, isNumeralChar c = true := fun c hc =>
    isNumeralChar_of_isDigit (digits c hc)
  have taken : text.takeWhile isNumeralChar = text := List.takeWhile_eq_self_iff.mpr run
  have dropped : text.dropWhile isNumeralChar = [] := List.dropWhile_eq_nil_iff.mpr run
  have few : (digitValues text).length ≤ maxDigits := by simpa [digitValues] using short
  simp only [readMagnitude, taken, dropped, groupedDigits?_of_digits nonempty digits,
    boundedOfDigits, few, if_true, ofDigits_digitValues]
  rfl

/-- Nothing precedes the digits of a run: no white space and no sign. -/
theorem splitSign_of_digits {text : List Char} (digits : ∀ c ∈ text, c.isDigit = true) :
    splitSign (text.dropWhile isPadding) = (false, text) := by
  cases text with
  | nil => rfl
  | cons c rest =>
    have digit : c.isDigit = true := digits c (by simp)
    rw [List.dropWhile_cons, isPadding_of_isDigit digit]
    unfold splitSign
    split
    · rename_i heq
      cases heq
      exact absurd digit (by decide)
    · rename_i heq
      cases heq
      exact absurd digit (by decide)
    · rfl

/-- What the strict reader reads, the lenient reader reads as the same number. -/
theorem readInteger_of_readNatural {token : String} {n : Nat} (h : readNatural token = .ok n) :
    readInteger token = .ok (n : Int) := by
  obtain ⟨⟨nonempty, digits, rfl⟩, short⟩ := readNatural_eq_ok_iff.mp h
  have few : token.toList.length ≤ maxDigits := String.length_toList ▸ short
  simp only [readInteger, splitSign_of_digits digits, readMagnitude_of_digits nonempty digits few]
  rfl

/-! ## Numbers that can be written -/

theorem digitBound_eq : digitBound = 10 ^ maxDigits := by
  unfold digitBound
  generalize maxDigits = digits
  exact Nat.pow_eq

/-- The value of a run of digits has no more digits than the run. -/
theorem ofDigits_lt {digits : List Nat} (small : ∀ d ∈ digits, d < 10) :
    ofDigits digits < 10 ^ digits.length := by
  -- Any number may stand in front of the run.
  have bounded (n : Nat) :
      digits.foldl (fun n d => 10 * n + d) n < (n + 1) * 10 ^ digits.length := by
    induction digits generalizing n with
    | nil => simp
    | cons d rest ih =>
      obtain ⟨first, later⟩ := List.forall_mem_cons.mp small
      calc rest.foldl (fun n d => 10 * n + d) (10 * n + d)
          < (10 * n + d + 1) * 10 ^ rest.length := ih later _
        _ ≤ (n + 1) * 10 * 10 ^ rest.length := Nat.mul_le_mul_right _ (by omega)
        _ = (n + 1) * 10 ^ (rest.length + 1) := by rw [Nat.mul_assoc, ← Nat.pow_succ']
  simpa [ofDigits] using bounded 0

theorem groupedDigits?_lt {text : List Char} {digits : List Nat}
    (read : groupedDigits? text = some digits) : ∀ d ∈ digits, d < 10 := by
  fun_induction groupedDigits? text generalizing digits with
  | case1 => cases read
  | case2 c =>
    obtain ⟨d, digit, rfl⟩ := Option.map_eq_some_iff.mp read
    simpa using decimalDigit?_lt digit
  | case3 c rest ih | case4 c rest _ _ ih =>
    simp only [Option.bind_eq_bind, Option.pure_def, Option.bind_eq_some_iff,
      Option.some.injEq] at read
    obtain ⟨d, digit, others, later, rfl⟩ := read
    exact List.forall_mem_cons.mpr ⟨decimalDigit?_lt digit, ih later⟩

/-- A number whose magnitude is read has few enough digits to be written. -/
theorem lt_of_readMagnitude {text : List Char} {n : Nat} (read : readMagnitude text = .ok n) :
    n < digitBound := by
  unfold readMagnitude at read
  split at read
  · cases read
  · rename_i digits grouped
    obtain ⟨m, bounded, rest⟩ := Outcome.bind_eq_ok_iff.mp read
    split at rest
    · cases rest
      unfold boundedOfDigits at bounded
      split at bounded
      · rename_i short
        cases bounded
        rw [digitBound_eq]
        exact lt_of_lt_of_le (ofDigits_lt (groupedDigits?_lt grouped))
          (Nat.pow_le_pow_right (by decide) short)
      · cases bounded
    · cases rest

/-- What is read as a number can be written as one. -/
theorem isSpelled_of_readInteger {token : String} {n : Int} (read : readInteger token = .ok n) :
    isSpelled n = true := by
  obtain ⟨magnitude, found, same⟩ := Outcome.bind_eq_ok_iff.mp read
  have bound := lt_of_readMagnitude found
  have size : n.natAbs = magnitude := by
    rw [← Except.ok.inj same]
    split <;> simp
  rw [isSpelled, decide_eq_true_eq, size]
  exact bound

end RelCalc.Text

namespace RelCalc

/-- An operand that passes the strict reader becomes that number in the program. -/
theorem readOperand_of_readNatural {token : String} {n : Nat}
    (h : Text.readNatural token = .ok n) : readOperand token = .ok (n : Int) := by
  simp only [readOperand, Text.readInteger_of_readNatural h]

/-- The operands that a program is made with can be written again. -/
theorem isSpelled_of_readOperand {token : String} {n : Int} (read : readOperand token = .ok n) :
    Text.isSpelled n = true := by
  unfold readOperand at read
  split at read
  · rename_i found
    cases read
    exact Text.isSpelled_of_readInteger found
  · cases read
  · cases read

end RelCalc
