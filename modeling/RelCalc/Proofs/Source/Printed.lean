/-
  `Proofs.Source.Printed`: printed commands are read back.

  Commands whose words hold no white space and open no comment are printed one on each
  line, the words with a blank between each two.  The lines of such a text are the
  lines that were printed, their code is all of them, and their words are the words of
  the commands.  So reading undoes printing, up to the numbers of the lines.  Whatever is
  read from a text consists of such words, so it can be printed and read again.
-/
import RelCalc.Proofs.Source.LineFormat

set_option autoImplicit false

namespace RelCalc.Source

/-- A word: it is not empty, holds no white space, and does not open a comment. -/
structure IsWord (word : String) : Prop where
  nonempty : word.toList ≠ []
  solid : ∀ c ∈ word.toList, Text.isBlank c = false
  start : word.toList.head? ≠ some '#'

/-- Commands with the numbers of the lines that they are printed on. -/
def relined (commands : List Command) : List Command :=
  (commands.zipIdx 1).map fun entry => { entry.1 with line := some (entry.2 : Int) }

/-- The code points of the ASCII letters and digits lie between those of `0` and `z`. -/
theorem code_of_isAlphanum {c : Char} (h : c.isAlphanum = true) :
    0x30 ≤ c.toNat ∧ c.toNat ≤ 0x7a := by
  rcases Bool.or_eq_true_iff.mp h with letter | digit
  · rcases Bool.or_eq_true_iff.mp letter with upper | lower
    · have bounds : 0x41 ≤ c.toNat ∧ c.toNat ≤ 0x5a := of_decide_eq_true upper
      omega
    · have bounds : 0x61 ≤ c.toNat ∧ c.toNat ≤ 0x7a :=
        (Bool.and_eq_true_iff.mp lower).imp of_decide_eq_true of_decide_eq_true
      omega
  · obtain ⟨lower, upper⟩ := Text.isDigit_iff.mp digit
    omega

/-- Letters and digits make a word. -/
theorem isWord_of_isAlphanum {word : String} (nonempty : word.toList ≠ [])
    (each : ∀ c ∈ word.toList, c.isAlphanum = true) : IsWord word := by
  refine ⟨nonempty, fun c member => ?_, fun hash => ?_⟩
  · obtain ⟨lower, upper⟩ := code_of_isAlphanum (each c member)
    rw [Bool.eq_false_iff]
    intro blank
    simp only [Text.isBlank, Text.CharSet.contains_iff, Text.whiteSpace, List.mem_cons,
      List.not_mem_nil, or_false, exists_eq_or_imp, exists_eq_left] at blank
    omega
  · exact absurd (each '#' (List.mem_of_mem_head? hash)) (by decide)

/-! ## One line -/

section Line

variable {words : List String} {word rest : List Char}

theorem not_isGap_of_isWord {word : String} (h : IsWord word) :
    ∀ c ∈ word.toList, Text.isGap c = false :=
  fun c member => (Text.of_not_isBlank (h.solid c member)).2.2

/-- Inside a word no comment is opened. -/
theorem codeFrom_in_word (solid : ∀ c ∈ word, Text.isGap c = false) :
    codeFrom false (word ++ rest) = word ++ codeFrom false rest := by
  induction word with
  | nil => rfl
  | cons c word ih =>
    obtain ⟨first, others⟩ := List.forall_mem_cons.mp solid
    rw [List.cons_append, codeFrom, first, ih others]
    rfl

/-- A word is code, and no comment is opened right after it. -/
theorem codeFrom_word {word : String} (h : IsWord word) (rest : List Char) :
    codeFrom true (word.toList ++ rest) = word.toList ++ codeFrom false rest := by
  have solid := not_isGap_of_isWord h
  have start := h.start
  cases letters : word.toList with
  | nil => exact absurd letters h.nonempty
  | cons c later =>
    rw [letters] at solid start
    obtain ⟨first, others⟩ := List.forall_mem_cons.mp solid
    have notHash : c ≠ '#' := fun same => start (congrArg some same)
    rw [List.cons_append, codeFrom, first, codeFrom_in_word others]
    simp [notHash]

/-- All of a printed line is code. -/
theorem codePart_unwords (each : ∀ word ∈ words, IsWord word) :
    codePart (Text.unwords words).toList = (Text.unwords words).toList := by
  unfold codePart Text.unwords
  induction words with
  | nil => rfl
  | cons word rest ih =>
    obtain ⟨first, others⟩ := List.forall_mem_cons.mp each
    cases rest with
    | nil =>
      have alone := codeFrom_word first []
      rwa [codeFrom, List.append_nil] at alone
    | cons next rest =>
      rw [Text.toList_joinWith_cons_cons, List.append_assoc, codeFrom_word first]
      congr 1
      exact congrArg (List.cons ' ') (ih others)

/-- The words of a printed line are those that were printed. -/
theorem wordsOf_unwords (each : ∀ word ∈ words, IsWord word) :
    wordsOf (Text.unwords words).toList = words.map String.toList := by
  unfold Text.unwords
  induction words with
  | nil => rfl
  | cons word rest ih =>
    obtain ⟨first, others⟩ := List.forall_mem_cons.mp each
    have solid := not_isGap_of_isWord first
    cases rest with
    | nil => exact wordsOf_word first.nonempty solid
    | cons next rest =>
      rw [Text.toList_joinWith_cons_cons, List.append_assoc, List.map_cons, ← ih others]
      exact wordsOf_word_gap first.nonempty solid rfl

/-- A printed line holds no white space but blanks. -/
theorem blank_of_mem_unwords (each : ∀ word ∈ words, IsWord word) {c : Char}
    (member : c ∈ (Text.unwords words).toList) : c = ' ' ∨ Text.isBlank c = false := by
  unfold Text.unwords at member
  induction words with
  | nil => cases member
  | cons word rest ih =>
    obtain ⟨first, others⟩ := List.forall_mem_cons.mp each
    cases rest with
    | nil => exact .inr (first.solid c member)
    | cons next rest =>
      rw [Text.toList_joinWith_cons_cons, List.mem_append, List.mem_append] at member
      rcases member with (inside | gap) | later
      · exact .inr (first.solid c inside)
      · exact .inl (List.mem_singleton.mp gap)
      · exact ih others later

theorem not_mem_unwords (each : ∀ word ∈ words, IsWord word) {c : Char}
    (blank : Text.isBlank c = true) (other : c ≠ ' ') : c ∉ (Text.unwords words).toList := by
  intro member
  rcases blank_of_mem_unwords each member with same | solid
  · exact other same
  · rw [blank] at solid
    cases solid

theorem clean_unwords (each : ∀ word ∈ words, IsWord word) : Clean (Text.unwords words).toList := by
  rintro c member ⟨blank, notGap⟩
  rcases blank_of_mem_unwords each member with rfl | solid
  · cases notGap
  · rw [blank] at solid
    cases solid

/-- A line of at least one word is not empty. -/
theorem unwords_ne_nil {word : String} {rest : List String} (first : IsWord word) :
    (Text.unwords (word :: rest)).toList ≠ [] := by
  cases rest with
  | nil => exact first.nonempty
  | cons next rest =>
    rw [Text.unwords, Text.toList_joinWith_cons_cons, List.append_assoc]
    exact List.append_ne_nil_of_left_ne_nil first.nonempty _

/-- A letter and words on one line, printed as a declaration is. -/
theorem letterLine_unwords (letter : String) (each : ∀ word ∈ words, IsWord word) :
    letterLine letter (Text.unwords words) = Text.unwords (letter :: words) := by
  cases words with
  | nil => rfl
  | cons word rest =>
    have letters : (Text.unwords (word :: rest)).toList ≠ [] :=
      unwords_ne_nil (each word List.mem_cons_self)
    have some : Text.unwords (word :: rest) ≠ "" := by
      intro empty
      rw [empty] at letters
      exact letters rfl
    rw [letterLine, if_neg some]
    rfl

theorem dropReturn_of_not_mem {line : List Char} (h : '\r' ∉ line) : dropReturn line = line := by
  rw [dropReturn, if_neg]
  exact fun last => h (List.mem_of_getLast? last)

end Line

/-! ## All lines -/

section Lines

/-- A text of lines is cut at its newlines into these lines. -/
theorem splitOn_joined {lines : List (List Char)} (single : ∀ line ∈ lines, '\n' ∉ line) :
    (joined lines).splitOn '\n' = lines ++ [[]] := by
  induction lines with
  | nil => rfl
  | cons line rest ih =>
    obtain ⟨first, others⟩ := List.forall_mem_cons.mp single
    rw [joined_cons, List.splitOn_append_cons_self_of_not_mem first, ih others]
    rfl

/-- Lines that are not empty are joined without a newline at the end. -/
theorem terminated_unlines {lines : List String} (some : lines ≠ [])
    (nonempty : ∀ line ∈ lines, line.toList ≠ []) (single : ∀ line ∈ lines, '\n' ∉ line.toList) :
    terminated (Text.unlines lines).toList = joined (lines.map String.toList) := by
  have parts : (Text.unlines lines).toList ≠ [] ∧
      (Text.unlines lines).toList.getLast? ≠ .some '\n' ∧
        (Text.unlines lines).toList ++ ['\n'] = joined (lines.map String.toList) := by
    unfold Text.unlines
    induction lines with
    | nil => exact absurd rfl some
    | cons line rest ih =>
      obtain ⟨firstNonempty, nonempty⟩ := List.forall_mem_cons.mp nonempty
      obtain ⟨firstSingle, single⟩ := List.forall_mem_cons.mp single
      cases rest with
      | nil =>
        exact ⟨firstNonempty, fun last => firstSingle (List.mem_of_getLast? last),
          by simp [joined, Text.joinWith]⟩
      | cons next rest =>
        obtain ⟨someLater, lastLater, joinedLater⟩ := ih (by simp) nonempty single
        rw [Text.toList_joinWith_cons_cons, List.map_cons, joined_cons, ← joinedLater]
        refine ⟨List.append_ne_nil_of_right_ne_nil _ someLater, ?_, by simp⟩
        rwa [List.getLast?_append_of_ne_nil _ someLater]
  rw [terminated, if_neg parts.2.1, parts.2.2]

/-- The physical lines of printed lines are these lines. -/
theorem physicalLines_unlines {lines : List String} (some : lines ≠ [])
    (nonempty : ∀ line ∈ lines, line.toList ≠ [])
    (plain : ∀ line ∈ lines, '\n' ∉ line.toList ∧ '\r' ∉ line.toList) :
    physicalLines (Text.unlines lines).toList = lines.map String.toList := by
  have single : ∀ line ∈ lines.map String.toList, '\n' ∉ line :=
    List.forall_mem_map.mpr fun line member => (plain line member).1
  rw [physicalLines, terminated_unlines some nonempty fun line member => (plain line member).1,
    splitOn_joined single, List.dropLast_concat, List.map_map]
  exact List.map_congr_left fun line member => dropReturn_of_not_mem (plain line member).2

end Lines

/-! ## Commands -/

section Commands

variable {commands : List Command} {command : Command}

/-- The line of a command is read as the command. -/
theorem commandOnLine?_text (each : ∀ word ∈ command.word :: command.args, IsWord word) (n : Nat) :
    commandOnLine? (command.text.toList, n) = some { command with line := some (n : Int) } := by
  rw [commandOnLine?, Command.text, codePart_unwords each, wordsOf_unwords each, List.map_cons]
  simp [Function.comp_def]

/-- **Reading undoes printing.**  Commands whose words are words are read back from the text that
prints them, each with the number of its line. -/
theorem read_print
    (each : ∀ command ∈ commands, ∀ word ∈ command.word :: command.args, IsWord word) :
    read (print commands) = .ok (relined commands) := by
  by_cases none : commands = []
  · subst none
    decide +kernel
  have lines : physicalLines (print commands).toList =
      commands.map fun command => command.text.toList := by
    rw [print, physicalLines_unlines (by simpa using none), List.map_map]
    · rfl
    · exact List.forall_mem_map.mpr fun command member =>
        unwords_ne_nil (each command member command.word List.mem_cons_self)
    · exact List.forall_mem_map.mpr fun command member =>
        ⟨not_mem_unwords (each command member) (by decide) (by decide),
          not_mem_unwords (each command member) (by decide) (by decide)⟩
  have clean : ∀ line ∈ physicalLines (print commands).toList, Clean (codePart line) := by
    rw [lines]
    refine List.forall_mem_map.mpr fun command member => ?_
    rw [Command.text, codePart_unwords (each command member)]
    exact clean_unwords (each command member)
  have found :
      ((commands.map fun command => command.text.toList).zipIdx 1).filterMap commandOnLine? =
        (commands.zipIdx 1).map fun entry => { entry.1 with line := some (entry.2 : Int) } := by
    rw [List.zipIdx_map, List.filterMap_map, ← List.filterMap_eq_map]
    refine List.filterMap_congr fun entry member => ?_
    exact commandOnLine?_text (each entry.1 (List.fst_mem_of_mem_zipIdx member)) entry.2
  rw [read_of_clean clean, lines, found]
  rfl

/-- The numbers of lines aside, they are the same commands. -/
theorem same_relined (commands : List Command) :
    List.Forall₂ (fun command again => command.same again = true) commands (relined commands) := by
  have fst : (commands.zipIdx 1).map Prod.fst = commands := List.zipIdx_map_fst 1 commands
  conv => arg 2; rw [← fst]
  rw [relined, List.forall₂_map_left_iff, List.forall₂_map_right_iff, List.forall₂_same]
  simp [Command.same]

theorem line_of_relined {i : Nat} (found : (relined commands)[i]? = some command) :
    command.line = some (i + 1 : Nat) := by
  rw [relined, List.getElem?_map, List.getElem?_zipIdx, Option.map_map] at found
  obtain ⟨first, -, rfl⟩ := Option.map_eq_some_iff.mp found
  simp [Nat.add_comm]

end Commands

/-! ## What is read -/

section Read

variable {text : String} {commands : List Command}

/-- Whatever is read consists of words. -/
theorem isWord_of_read (found : read text = .ok commands) :
    ∀ command ∈ commands, ∀ word ∈ command.word :: command.args, IsWord word := by
  intro command member word inside
  obtain ⟨n, line, place, -, words⟩ := exists_line_of_read found member
  have clean := clean_of_read found line (List.mem_of_getElem? place)
  have spelled : word.toList ∈ wordsOf (codePart line) := words ▸ List.mem_map_of_mem inside
  obtain ⟨nonempty, solid⟩ := solid_of_mem_wordsOf spelled
  refine ⟨nonempty, fun c letter => ?_, head?_ne_of_mem_wordsOf spelled⟩
  obtain ⟨code, notGap⟩ := solid c letter
  by_contra blank
  exact clean c code ⟨by simpa using blank, notGap⟩

/-- **Reading undoes printing, and printing keeps what is read.**  Commands that consist of words
are read back from the text that prints them, pairwise the same and numbered by their lines.
Whatever is read from a text consists of words, so it is read again from the text that prints it. -/
theorem read_print_same :
    (∀ commands : List Command,
      (∀ command ∈ commands, ∀ word ∈ command.word :: command.args, IsWord word) →
        ∃ again, read (print commands) = .ok again ∧
          List.Forall₂ (fun command other => command.same other = true) commands again ∧
          ∀ (i : Nat) (other : Command), again[i]? = some other →
            other.line = some (i + 1 : Nat)) ∧
    ∀ (text : String) (commands : List Command), read text = .ok commands →
      (∀ command ∈ commands, ∀ word ∈ command.word :: command.args, IsWord word) ∧
        ∃ again, read (print commands) = .ok again ∧
          List.Forall₂ (fun command other => command.same other = true) commands again := by
  constructor
  · intro commands each
    exact ⟨relined commands, read_print each, same_relined commands, fun i other => line_of_relined⟩
  · intro text commands found
    have each := isWord_of_read found
    exact ⟨each, relined commands, read_print each, same_relined commands⟩

/-- Words with a number sign inside, and with a space of no width, which is not white space. -/
def signCommands : List Command := [⟨"C", ["a#b", "x\u200by"], some 1⟩, ⟨"note#", [], some 3⟩]

/-- A text of these commands, with blanks, comments and carriage returns. -/
def signText : String := "\tC a#b  x\u200by # C\r\n #\r\n note#"

/-- They are read from this text, and again from the text that prints them, on the lines of that. -/
theorem read_print_same_signText : read signText = .ok signCommands ∧
    (∀ command ∈ signCommands, ∀ word ∈ command.word :: command.args, IsWord word) ∧
      ∃ again, read (print signCommands) = .ok again ∧
        List.Forall₂ (fun command other => command.same other = true) signCommands again ∧
        ∀ (i : Nat) (other : Command), again[i]? = some other →
          other.line = some (i + 1 : Nat) := by
  have found : read signText = .ok signCommands := by decide +kernel
  obtain ⟨each, -⟩ := read_print_same.2 signText signCommands found
  exact ⟨found, each, read_print_same.1 signCommands each⟩

end Read

end RelCalc.Source
