/-
  `Proofs.Source.LineFormat`: program text line by line.

  The text, ended with a newline if it is not, is cut at its newlines, and each line
  loses one carriage return at its end.  The code of a line is what precedes the first
  number sign at its start or after a blank; its words are separated by blanks.  A text
  is read when no code holds other white space, and each line with words is a command.
  Else the first such character, by line and column, is reported.

  The scanner does not see lines as wholes: a comment swallows the carriage return at
  the end of its line, and a carriage return is judged by what comes after it.  So the
  statements here go by induction over one line, for each mode the scanner can be in.
-/
import Mathlib.Data.List.TakeWhile
import RelCalc.Proofs.Numeral
import RelCalc.Proofs.Source.Grammar

set_option autoImplicit false

namespace RelCalc.Source

/-! ## Lines, code and words -/

/-- A line without the carriage return at its end. -/
def dropReturn (line : List Char) : List Char :=
  if line.getLast? = some '\r' then line.dropLast else line

/-- The physical lines of a text. -/
def physicalLines (text : List Char) : List (List Char) :=
  ((terminated text).splitOn '\n').dropLast.map dropReturn

/-- The rest of a line up to a number sign that opens a comment.  One opens a comment where a word
could start. -/
def codeFrom (opens : Bool) : List Char → List Char
  | [] => []
  | c :: rest => if opens && c = '#' then [] else c :: codeFrom (Text.isGap c) rest

/-- The code of a line: what precedes its first number sign at the start or after a blank. -/
def codePart (line : List Char) : List Char := codeFrom true line

/-- The words of some code. -/
def wordsOf (code : List Char) : List (List Char) :=
  (code.splitOnP Text.isGap).filter fun word => word ≠ []

/-- White space that does not separate words. -/
def IsMisplaced (c : Char) : Prop := Text.isBlank c = true ∧ Text.isGap c = false

/-- Code without misplaced characters. -/
def Clean (code : List Char) : Prop := ∀ c ∈ code, ¬ IsMisplaced c

/-- The command on a numbered line, if it has words. -/
def commandOnLine? (line : List Char × Nat) : Option Command :=
  match wordsOf (codePart line.1) with
  | [] => none
  | word :: args => some ⟨String.ofList word, args.map String.ofList, some line.2⟩

/-- A character is the first misplaced one in the code of some lines, on the line and in the column
of the given numbers. -/
inductive FirstMisplaced (c : Char) : Nat → Nat → List (List Char) → Prop where
  | cut {before after : List (List Char)} {line start rest : List Char}
      (earlier : ∀ other ∈ before, Clean (codePart other))
      (code : codePart line = start ++ c :: rest) (clean : Clean start)
      (misplaced : IsMisplaced c) :
      FirstMisplaced c (before.length + 1) (start.length + 1) (before ++ line :: after)

/-- The first line of a text that is quoted. -/
def firstLine (text : String) : String :=
  String.ofList (text.toList.takeWhile fun c => !Text.isLineBoundary c)

/-! ## Words -/

section Words

variable {word code : List Char} {c : Char}

theorem wordsOf_gap (gap : Text.isGap c = true) : wordsOf (c :: code) = wordsOf code := by
  rw [wordsOf, List.splitOnP_cons_eq_if_modifyHead, if_pos gap]
  rfl

theorem wordsOf_word_gap (some : word ≠ []) (solid : ∀ d ∈ word, Text.isGap d = false)
    (gap : Text.isGap c = true) : wordsOf (word ++ c :: code) = word :: wordsOf code := by
  rw [wordsOf, List.splitOnP_append_cons_of_forall_mem solid c gap, List.filter_cons,
    if_pos (decide_eq_true some)]
  rfl

theorem wordsOf_word (some : word ≠ []) (solid : ∀ d ∈ word, Text.isGap d = false) :
    wordsOf word = [word] := by
  rw [wordsOf, List.splitOnP_eq_singleton solid, List.filter_singleton, decide_eq_true some]
  rfl

theorem wordsOf_append_gap (gap : Text.isGap c = true) : wordsOf (code ++ [c]) = wordsOf code := by
  rw [wordsOf, List.splitOnP_append_cons code [] gap, List.filter_append]
  exact List.append_nil _

/-- The pieces between gaps consist of what is not a gap. -/
theorem solid_of_mem_splitOnP (member : word ∈ code.splitOnP Text.isGap) :
    ∀ c ∈ word, c ∈ code ∧ Text.isGap c = false := by
  induction code generalizing word with
  | nil =>
    obtain rfl := List.mem_singleton.mp member
    simp
  | cons d code ih =>
    obtain ⟨first, rest, cut⟩ := List.exists_cons_of_ne_nil (List.splitOnP_ne_nil Text.isGap code)
    rw [List.splitOnP_cons_eq_if_modifyHead, cut] at member
    rw [cut] at ih
    split at member
    · rcases List.mem_cons.mp member with rfl | later
      · simp
      · exact fun c inside => (ih later c inside).imp_left (List.mem_cons_of_mem d)
    · rename_i notGap
      rcases List.mem_cons.mp member with rfl | later
      · refine List.forall_mem_cons.mpr ⟨⟨List.mem_cons_self, by simpa using notGap⟩, ?_⟩
        exact fun c inside =>
          (ih List.mem_cons_self c inside).imp_left (List.mem_cons_of_mem d)
      · exact fun c inside =>
          (ih (List.mem_cons_of_mem first later) c inside).imp_left (List.mem_cons_of_mem d)

/-- Words are not empty and consist of what is not a gap. -/
theorem solid_of_mem_wordsOf (member : word ∈ wordsOf code) :
    word ≠ [] ∧ ∀ c ∈ word, c ∈ code ∧ Text.isGap c = false := by
  obtain ⟨piece, nonempty⟩ := List.mem_filter.mp member
  exact ⟨of_decide_eq_true nonempty, solid_of_mem_splitOnP piece⟩

/-- In the code of a line only a piece that goes on from before it can start with a number sign: any
other number sign at the start of a piece would open a comment. -/
theorem splitOnP_codeFrom (opens : Bool) (line : List Char) :
    ∃ first rest, (codeFrom opens line).splitOnP Text.isGap = first :: rest ∧
      (opens = true → first.head? ≠ some '#') ∧ ∀ piece ∈ rest, piece.head? ≠ some '#' := by
  induction line generalizing opens with
  | nil => exact ⟨[], [], rfl, by simp, by simp⟩
  | cons c line ih =>
    rw [codeFrom]
    split
    · exact ⟨[], [], rfl, by simp, by simp⟩
    · rename_i goesOn
      obtain ⟨first, rest, cut, hfirst, hrest⟩ := ih (Text.isGap c)
      rw [List.splitOnP_cons_eq_if_modifyHead, cut]
      by_cases gap : Text.isGap c = true
      · rw [if_pos gap]
        exact ⟨[], first :: rest, rfl, by simp, List.forall_mem_cons.mpr ⟨hfirst gap, hrest⟩⟩
      · rw [if_neg gap]
        refine ⟨c :: first, rest, rfl, fun fresh hash => goesOn ?_, hrest⟩
        simpa [fresh] using hash

theorem head?_ne_of_mem_wordsOf {line : List Char} (member : word ∈ wordsOf (codePart line)) :
    word.head? ≠ some '#' := by
  obtain ⟨first, rest, cut, hfirst, hrest⟩ := splitOnP_codeFrom true line
  have piece := (List.mem_filter.mp member).1
  rw [codePart, cut] at piece
  rcases List.mem_cons.mp piece with rfl | later
  · exact hfirst rfl
  · exact hrest word later

end Words

/-! ## Code and the scanner -/

/-- The letters of the word that a mode is in, the last one first. -/
def Mode.letters : Mode → List Char
  | .word letters => letters
  | _ => []

/-- A mode that is in a word has letters of one. -/
def Mode.Solid : Mode → Prop
  | .word letters => letters ≠ [] ∧ ∀ c ∈ letters, Text.isGap c = false
  | _ => True

/-- What the scanner makes of code alone, when it comes to it in a mode. -/
def scanCode (line column : Nat) : Mode → List Char → Except Fault (List Lexeme)
  | mode, [] => .ok (mode.close line)
  | mode, c :: code =>
      if Text.isGap c then before (mode.close line) (scanCode line (column + 1) .gap code)
      else if Text.isBlank c then
        .error (.diagnostic ⟨.misplaced c line column, some line, none⟩)
      else scanCode line (column + 1) (.word (c :: mode.letters)) code

section Line

variable {line column : Nat} {mode : Mode} {text rest code start : List Char} {c : Char}

theorem dropReturn_cons (h : ¬ (c = '\r' ∧ text = [])) :
    dropReturn (c :: text) = c :: dropReturn text := by
  unfold dropReturn
  cases text with
  | nil =>
    have notReturn : c ≠ '\r' := fun same => h ⟨same, rfl⟩
    simp [notReturn]
  | cons d text =>
    rw [List.getLast?_cons_cons]
    split <;> rfl

/-- The words of clean code are found, with the word that the mode is in put before them. -/
theorem scanCode_of_clean (solid : mode.Solid) (clean : Clean code) :
    scanCode line column mode code =
      .ok ((wordsOf (mode.letters.reverse ++ code)).map (.word line)) := by
  induction code generalizing mode column with
  | nil =>
    rw [scanCode, List.append_nil]
    cases mode with
    | gap => rfl
    | comment => rfl
    | word letters =>
      obtain ⟨some, solid⟩ := solid
      rw [Mode.letters, wordsOf_word (by simpa using some) (by simpa using solid)]
      rfl
  | cons c code ih =>
    obtain ⟨first, others⟩ := List.forall_mem_cons.mp clean
    by_cases gap : Text.isGap c = true
    · have fresh : Mode.gap.Solid := trivial
      rw [scanCode, if_pos gap, ih fresh others]
      cases mode with
      | gap | comment =>
        have same : wordsOf code = wordsOf (c :: code) := (wordsOf_gap gap).symm
        exact congrArg (fun words => Except.ok (words.map (Lexeme.word line))) same
      | word letters =>
        obtain ⟨some, solid⟩ := solid
        rw [Mode.letters, wordsOf_word_gap (by simpa using some) (by simpa using solid) gap]
        rfl
    · have notBlank : ¬ Text.isBlank c = true := by
        intro blank
        exact first ⟨blank, by simpa using gap⟩
      have solid' : (Mode.word (c :: mode.letters)).Solid := by
        refine ⟨by simp, List.forall_mem_cons.mpr ⟨by simpa using gap, ?_⟩⟩
        cases mode with
        | gap => simp [Mode.letters]
        | comment => simp [Mode.letters]
        | word letters => exact solid.2
      rw [scanCode, if_neg gap, if_neg notBlank, ih solid' others]
      simp [Mode.letters]

/-- The first misplaced character ends the scan. -/
theorem scanCode_of_misplaced (clean : Clean start) (misplaced : IsMisplaced c) :
    scanCode line column mode (start ++ c :: rest) =
      .error (.diagnostic ⟨.misplaced c line (column + start.length), some line, none⟩) := by
  induction start generalizing mode column with
  | nil =>
    obtain ⟨blank, notGap⟩ := misplaced
    rw [List.nil_append, scanCode, if_neg (by simp [notGap]), if_pos blank]
    rfl
  | cons d start ih =>
    obtain ⟨first, others⟩ := List.forall_mem_cons.mp clean
    rw [List.cons_append, scanCode, column_cons]
    split
    · rw [ih others]
      rfl
    · rename_i notGap
      rw [if_neg fun blank => first ⟨blank, by simpa using notGap⟩]
      exact ih others

/-- What comes of a line: its code, then the end of the line and what is behind it. -/
def endLine (words later : Except Fault (List Lexeme)) : Except Fault (List Lexeme) :=
  words.bind fun words => before (words ++ [.lineEnd]) later

theorem endLine_before (lexemes : List Lexeme) (words later : Except Fault (List Lexeme)) :
    endLine (before lexemes words) later = before lexemes (endLine words later) := by
  cases words with
  | error fault => rfl
  | ok words =>
    show before ((lexemes ++ words) ++ [.lineEnd]) later = _
    rw [List.append_assoc, before_append]
    rfl

/-- The scanner goes through a line as through its code. -/
theorem scan_line (outside : mode ≠ .comment) (single : '\n' ∉ text) :
    scan line column mode (text ++ '\n' :: rest) =
      endLine (scanCode line column mode (codeFrom (decide (mode = .gap)) (dropReturn text)))
        (scan (line + 1) 1 .gap rest) := by
  induction text generalizing mode column with
  | nil =>
    rw [List.nil_append, scan_newline]
    cases scan (line + 1) 1 .gap rest with
    | error fault => rfl
    | ok later => simp [endLine, before, scanCode, codeFrom, dropReturn, Except.map, Except.bind]
  | cons c text ih =>
    rw [List.mem_cons, not_or] at single
    obtain ⟨notNewline, single⟩ := single
    by_cases atEnd : c = '\r' ∧ text = []
    · obtain ⟨rfl, rfl⟩ := atEnd
      rw [List.singleton_append, scan_return outside, scan_newline]
      cases scan (line + 1) 1 .gap rest with
      | error fault => rfl
      | ok later =>
        simp [endLine, before, scanCode, codeFrom, dropReturn, Except.map, Except.bind, Mode.close]
    have notReturn : ¬ (c = '\r' ∧ (text ++ '\n' :: rest).head? = some '\n') := by
      rintro ⟨rfl, head⟩
      cases text with
      | nil => exact atEnd ⟨rfl, rfl⟩
      | cons d text =>
        cases head
        simp at single
    rw [dropReturn_cons atEnd, List.cons_append]
    by_cases opens : mode = .gap ∧ c = '#'
    · obtain ⟨rfl, rfl⟩ := opens
      rw [scan_hash, scan_in_comment single, scan_newline]
      rfl
    have goesOn : codeFrom (decide (mode = .gap)) (c :: dropReturn text) =
        c :: codeFrom (Text.isGap c) (dropReturn text) := by
      rw [codeFrom, if_neg (by simpa using opens)]
    rw [goesOn, scanCode]
    by_cases gap : Text.isGap c = true
    · rw [scan_gap gap outside, ih (by simp) single, if_pos gap, gap, endLine_before]
      rfl
    rw [if_neg gap]
    rw [Bool.not_eq_true] at gap
    by_cases blank : Text.isBlank c = true
    · rw [scan_misplaced outside blank gap (Ne.symm notNewline) notReturn, if_pos blank]
      rfl
    · rw [if_neg blank, gap]
      rw [Bool.not_eq_true] at blank
      cases mode with
      | comment => exact absurd rfl outside
      | gap =>
        have notHash : c ≠ '#' := fun same => opens ⟨rfl, same⟩
        rw [scan_letter blank notHash, ih (by simp) single]
        rfl
      | word letters =>
        rw [scan_in_word blank, ih (by simp) single]
        rfl

end Line

/-! ## All lines -/

section Lines

variable {n : Nat} {lines : List (List Char)} {c : Char}

/-- The lexemes of lines, the first of which has a given number. -/
def lexemesOfLines (n : Nat) : List (List Char) → List Lexeme
  | [] => []
  | line :: rest =>
      (wordsOf (codePart line)).map (.word n) ++ .lineEnd :: lexemesOfLines (n + 1) rest

/-- A text of lines that each end with a newline. -/
def joined (lines : List (List Char)) : List Char := lines.flatMap fun line => line ++ ['\n']

theorem joined_cons (line : List Char) (rest : List (List Char)) :
    joined (line :: rest) = line ++ '\n' :: joined rest := by
  rw [joined, List.flatMap_cons, List.append_assoc]
  rfl

/-- A line with clean code gives its words and its end. -/
theorem scan_clean_line {line rest : List Char} (single : '\n' ∉ line)
    (clean : Clean (codePart (dropReturn line))) :
    scan n 1 .gap (line ++ '\n' :: rest) =
      before ((wordsOf (codePart (dropReturn line))).map (.word n) ++ [.lineEnd])
        (scan (n + 1) 1 .gap rest) := by
  have fresh : Mode.gap.Solid := trivial
  rw [scan_line (by simp) single]
  exact congrArg (endLine · (scan (n + 1) 1 .gap rest)) (scanCode_of_clean fresh clean)

/-- Lines with clean code give their words. -/
theorem scan_clean_lines (single : ∀ line ∈ lines, '\n' ∉ line)
    (clean : ∀ line ∈ lines.map dropReturn, Clean (codePart line)) :
    scan n 1 .gap (joined lines) = .ok (lexemesOfLines n (lines.map dropReturn)) := by
  induction lines generalizing n with
  | nil => rfl
  | cons line rest ih =>
    obtain ⟨single, singles⟩ := List.forall_mem_cons.mp single
    obtain ⟨clean, cleans⟩ := List.forall_mem_cons.mp clean
    rw [joined_cons, scan_clean_line single clean, ih singles cleans, List.map_cons, lexemesOfLines]
    simp [before, Except.map]

/-- The first misplaced character in the code of lines is reported. -/
theorem scan_misplaced_line {earlier later : List (List Char)} {line start rest : List Char}
    (single : ∀ other ∈ earlier ++ line :: later, '\n' ∉ other)
    (cleans : ∀ other ∈ earlier.map dropReturn, Clean (codePart other))
    (code : codePart (dropReturn line) = start ++ c :: rest) (clean : Clean start)
    (misplaced : IsMisplaced c) :
    scan n 1 .gap (joined (earlier ++ line :: later)) =
      .error (.diagnostic ⟨.misplaced c (n + earlier.length) (1 + start.length),
        some (n + earlier.length : Nat), none⟩) := by
  induction earlier generalizing n with
  | nil =>
    have outside := single line (by simp)
    have stops : scanCode n 1 .gap (start ++ c :: rest) = .error _ :=
      scanCode_of_misplaced clean misplaced
    rw [← code] at stops
    rw [List.nil_append, joined_cons, scan_line (by simp) outside]
    exact congrArg (endLine · _) stops
  | cons first earlier ih =>
    obtain ⟨single, singles⟩ := List.forall_mem_cons.mp single
    obtain ⟨firstClean, cleans⟩ := List.forall_mem_cons.mp cleans
    have shift : n + (first :: earlier).length = n + 1 + earlier.length := by
      rw [List.length_cons]
      omega
    rw [List.cons_append, joined_cons, scan_clean_line single firstClean, ih singles cleans, shift]
    rfl

/-- The commands on lines. -/
theorem commandsOf_lexemesOfLines (n : Nat) (lines : List (List Char)) :
    commandsOf (lexemesOfLines n lines) = (lines.zipIdx n).filterMap commandOnLine? := by
  induction lines generalizing n with
  | nil => rfl
  | cons line rest ih =>
    have words : (wordsOf (codePart line)).map (Lexeme.word n) =
        ((wordsOf (codePart line)).map fun word => (n, word)).map fun word =>
          .word word.1 word.2 := by
      rw [List.map_map]
      rfl
    have command : commandOfWords? ((wordsOf (codePart line)).map fun word => (n, word)) =
        commandOnLine? (line, n) := by
      rw [commandOnLine?]
      cases wordsOf (codePart line) with
      | nil => rfl
      | cons word args => simp [commandOfWords?]
    rw [lexemesOfLines, words, commandsOf, wordLines_of_words, List.filterMap_cons, command,
      List.zipIdx_cons, List.filterMap_cons, ← ih]
    rfl

/-- Cutting a text at its newlines gives lines without one, and a last piece without one. -/
theorem exists_splitOn (text : List Char) : ∃ lines last, text.splitOn '\n' = lines ++ [last] ∧
    joined lines ++ last = text ∧ ∀ piece ∈ lines ++ [last], '\n' ∉ piece := by
  induction text with
  | nil => exact ⟨[], [], rfl, rfl, by simp⟩
  | cons c text ih =>
    obtain ⟨lines, last, cut, whole, each⟩ := ih
    rw [List.splitOn] at cut ⊢
    rw [List.splitOnP_cons_eq_if_modifyHead, cut]
    by_cases newline : c = '\n'
    · subst newline
      refine ⟨[] :: lines, last, by rw [if_pos (by simp)]; rfl, ?_, ?_⟩
      · rw [joined_cons, ← whole]
        rfl
      · exact List.forall_mem_cons.mpr ⟨by simp, each⟩
    · rw [if_neg (by simpa using newline)]
      -- The character goes into the first line, or into the last piece if that is the only one.
      cases lines with
      | nil =>
        refine ⟨[], c :: last, rfl, by rw [← whole]; rfl, ?_⟩
        simp only [List.nil_append, List.forall_mem_singleton] at each ⊢
        simp [each, Ne.symm newline]
      | cons line lines =>
        refine ⟨(c :: line) :: lines, last, rfl, ?_, ?_⟩
        · rw [← whole, joined_cons, joined_cons]
          rfl
        · obtain ⟨first, others⟩ := List.forall_mem_cons.mp each
          exact List.forall_mem_cons.mpr ⟨by simp [first, Ne.symm newline], others⟩

/-- A text that ends with a newline is its lines, each with its newline, and no line holds one. -/
theorem joined_splitOn {text : List Char} (ends : text.getLast? = some '\n') :
    joined (text.splitOn '\n').dropLast = text ∧
      ∀ line ∈ (text.splitOn '\n').dropLast, '\n' ∉ line := by
  obtain ⟨lines, last, cut, whole, each⟩ := exists_splitOn text
  obtain ⟨singles, single⟩ := List.forall_mem_append.mp each
  have empty : last = [] := by
    by_contra some
    rw [← whole, List.getLast?_append_of_ne_nil _ some] at ends
    exact single last List.mem_cons_self (List.mem_of_getLast? ends)
  rw [cut, List.dropLast_concat]
  rw [empty, List.append_nil] at whole
  exact ⟨whole, singles⟩

/-- Code is clean, or it has a first misplaced character. -/
theorem clean_or_exists (code : List Char) :
    Clean code ∨ ∃ start c rest, code = start ++ c :: rest ∧ Clean start ∧ IsMisplaced c := by
  induction code with
  | nil => exact .inl (by simp [Clean])
  | cons c code ih =>
    by_cases misplaced : IsMisplaced c
    · exact .inr ⟨[], c, code, rfl, by simp [Clean], misplaced⟩
    · rcases ih with clean | ⟨start, d, rest, rfl, clean, found⟩
      · exact .inl (List.forall_mem_cons.mpr ⟨misplaced, clean⟩)
      · exact .inr ⟨c :: start, d, rest, rfl, List.forall_mem_cons.mpr ⟨misplaced, clean⟩, found⟩

/-- Lines have clean code, or there is a first misplaced character. -/
theorem clean_or_misplaced (lines : List (List Char)) :
    (∀ line ∈ lines, Clean (codePart line)) ∨ ∃ c n column, FirstMisplaced c n column lines := by
  induction lines with
  | nil => exact .inl (by simp)
  | cons line lines ih =>
    rcases clean_or_exists (codePart line) with clean | ⟨start, c, rest, code, clean, misplaced⟩
    · rcases ih with cleans | ⟨c, n, column, first⟩
      · exact .inl (List.forall_mem_cons.mpr ⟨clean, cleans⟩)
      · cases first with
        | cut earlier code start misplaced =>
          exact .inr ⟨c, _, _,
            .cut (List.forall_mem_cons.mpr ⟨clean, earlier⟩) code start misplaced⟩
    · exact .inr ⟨c, _, _, .cut (List.forall_mem_nil _) code clean misplaced⟩

end Lines

/-! ## The message -/

theorem plain_of_all {text : String}
    (h : (text.toList.all fun d => !Text.isLineBoundary d) = true) :
    ∀ d ∈ text.toList, Text.isLineBoundary d = false := by
  simpa using h

/-- A text without line boundaries is its own first line. -/
theorem firstLine_of_plain {text : String}
    (plain : ∀ d ∈ text.toList, Text.isLineBoundary d = false) : firstLine text = text := by
  have whole : (text.toList.takeWhile fun d => !Text.isLineBoundary d) = text.toList :=
    List.takeWhile_eq_self_iff.mpr fun d member => by rw [plain d member]; rfl
  rw [firstLine, whole, String.ofList_toList]

/-- A line boundary ends the first line. -/
theorem firstLine_of_boundary {start rest : String} {c : Char}
    (plain : ∀ d ∈ start.toList, Text.isLineBoundary d = false)
    (boundary : Text.isLineBoundary c = true) :
    firstLine (start ++ String.singleton c ++ rest) = start := by
  have cut : (start ++ String.singleton c ++ rest).toList = start.toList ++ c :: rest.toList := by
    simp
  rw [firstLine, cut, List.takeWhile_append_of_pos fun d member => by rw [plain d member]; rfl,
    List.takeWhile_cons, boundary]
  simp

theorem not_isLineBoundary_of_toString (n : Nat) :
    ∀ d ∈ (toString n).toList, Text.isLineBoundary d = false := by
  intro d member
  rw [Nat.toString_eq_ofList_toDigits, String.toList_ofList] at member
  have digit := Nat.isDigit_of_mem_toDigits (by decide) (by decide) member
  rw [Text.isDigit_iff] at digit
  rw [Bool.eq_false_iff]
  intro boundary
  simp only [Text.isLineBoundary, Text.CharSet.contains_iff, Text.lineBoundaries, List.mem_cons,
    List.not_mem_nil, or_false, exists_eq_or_imp, exists_eq_left] at boundary
  omega

/-- The message says which character, on which line and in which column; a character that ends a
line ends the message too. -/
theorem message_of_misplaced (c : Char) (n column : Nat) :
    Cause.message (.misplaced c n column) = "Malformed line: " ++
      firstLine ("No terminal matches '" ++ String.singleton c ++
        "' in the current parser context, at line " ++ toString n ++ " col " ++
          toString column) := by
  have start : ∀ d ∈ "No terminal matches '".toList, Text.isLineBoundary d = false :=
    plain_of_all (by decide)
  show Cause.misplacedMessage c n column = _
  unfold Cause.misplacedMessage
  by_cases boundary : Text.isLineBoundary c = true
  · rw [if_pos boundary, String.append_assoc, String.append_assoc, String.append_assoc,
      firstLine_of_boundary start boundary]
    rfl
  · rw [Bool.not_eq_true] at boundary
    have plain : ∀ d ∈ ("No terminal matches '" ++ String.singleton c ++
        "' in the current parser context, at line " ++ toString n ++ " col " ++
          toString column).toList, Text.isLineBoundary d = false := by
      simp only [String.toList_append, List.forall_mem_append]
      exact ⟨⟨⟨⟨⟨start, by simpa using boundary⟩, plain_of_all (by decide)⟩,
        not_isLineBoundary_of_toString n⟩, plain_of_all (by decide)⟩,
        not_isLineBoundary_of_toString column⟩
    have cut : "Malformed line: No terminal matches '" =
        "Malformed line: " ++ "No terminal matches '" := rfl
    rw [boundary, firstLine_of_plain plain, cut]
    simp only [String.append_assoc, Bool.false_eq_true, if_false]

/-! ## Texts -/

section Texts

variable {text : String}

theorem read_of_clean (clean : ∀ line ∈ physicalLines text.toList, Clean (codePart line)) :
    read text = .ok (((physicalLines text.toList).zipIdx 1).filterMap commandOnLine?) := by
  obtain ⟨whole, single⟩ := joined_splitOn (getLast?_terminated text.toList)
  have scanned := scan_clean_lines (n := 1) single clean
  rw [whole] at scanned
  rw [read, lexemes, scanned]
  exact congrArg Except.ok (commandsOf_lexemesOfLines 1 _)

theorem read_of_misplaced {c : Char} {n column : Nat}
    (first : FirstMisplaced c n column (physicalLines text.toList)) :
    read text = .error (.diagnostic ⟨.misplaced c n column, some n, none⟩) := by
  obtain ⟨whole, single⟩ := joined_splitOn (getLast?_terminated text.toList)
  unfold physicalLines at first
  generalize lines : ((terminated text.toList).splitOn '\n').dropLast = pieces at first whole single
  generalize dropped : pieces.map dropReturn = shown at first
  cases first with
  | cut earlier code clean misplaced =>
    obtain ⟨before, others, rfl, rfl, others_eq⟩ := List.map_eq_append_iff.mp dropped
    obtain ⟨line, after, rfl, rfl, rfl⟩ := List.map_eq_cons_iff.mp others_eq
    have scanned := scan_misplaced_line (n := 1) single earlier code clean misplaced
    rw [whole] at scanned
    rw [read, lexemes, scanned, List.length_map, Nat.add_comm 1, Nat.add_comm 1]
    rfl

/-- A text that is read has clean code on all lines. -/
theorem clean_of_read {commands : List Command} (found : read text = .ok commands) :
    ∀ line ∈ physicalLines text.toList, Clean (codePart line) := by
  rcases clean_or_misplaced (physicalLines text.toList) with clean | ⟨c, n, column, first⟩
  · exact clean
  · rw [read_of_misplaced first] at found
    cases found

/-- The command on a line has the words of the line, and its number. -/
theorem commandOnLine?_eq_some_iff {line : List Char} {n : Nat} {command : Command} :
    commandOnLine? (line, n) = some command ↔ command.line = some (n : Int) ∧
      wordsOf (codePart line) = (command.word :: command.args).map String.toList := by
  obtain ⟨word, args, number⟩ := command
  rw [commandOnLine?]
  split
  · rename_i empty
    simp [show wordsOf (codePart line) = [] from empty]
  · rename_i first others words
    rw [show wordsOf (codePart line) = first :: others from words, List.map_cons, Option.some.injEq,
      Command.mk.injEq]
    constructor
    · rintro ⟨rfl, rfl, rfl⟩
      simp [Function.comp_def]
    · rintro ⟨hnumber, same⟩
      obtain ⟨rfl, rfl⟩ := List.cons.inj same
      exact ⟨String.ofList_toList, by simp [Function.comp_def], hnumber.symm⟩

/-- A command that is read stands on one of the lines, and has its words and its number. -/
theorem exists_line_of_read {commands : List Command} {command : Command}
    (found : read text = .ok commands) (member : command ∈ commands) :
    ∃ (n : Nat) (line : List Char), (physicalLines text.toList)[n]? = some line ∧
      command.line = some (n + 1 : Nat) ∧
        wordsOf (codePart line) = (command.word :: command.args).map String.toList := by
  rw [read_of_clean (clean_of_read found)] at found
  obtain rfl := Except.ok.inj found
  obtain ⟨⟨line, number⟩, place, spelled⟩ := List.mem_filterMap.mp member
  obtain ⟨n, rfl⟩ := Nat.exists_eq_add_of_le' (List.le_snd_of_mem_zipIdx place)
  rw [List.mk_mem_zipIdx_iff_le_and_getElem?_sub, Nat.add_sub_cancel] at place
  obtain ⟨hnumber, words⟩ := commandOnLine?_eq_some_iff.mp spelled
  exact ⟨n, line, place.2, hnumber, words⟩

/-- **A text is read line by line.**  What a text is read as is what the terminals and rules of the
grammar say.  It is read when the code of its lines holds no white space but spaces and tabs, and
the commands are then those on its lines, in order, each with the number of its line.  Otherwise
the first such character is reported, on its line and in its column. -/
theorem read_lineFormat (text : String) :
    (∀ outcome, read text = outcome ↔ Parses text outcome) ∧
    (∀ commands, read text = .ok commands ↔
      (∀ line ∈ physicalLines text.toList, Clean (codePart line)) ∧
        commands = ((physicalLines text.toList).zipIdx 1).filterMap commandOnLine?) ∧
    (∀ fault, read text = .error fault ↔
      ∃ c n column, FirstMisplaced c n column (physicalLines text.toList) ∧
        fault = .diagnostic ⟨.misplaced c n column, some n, none⟩) ∧
    ∀ (c : Char) (n column : Nat), Cause.category (.misplaced c n column) = .malformed ∧
      Cause.message (.misplaced c n column) = "Malformed line: " ++
        firstLine ("No terminal matches '" ++ String.singleton c ++
          "' in the current parser context, at line " ++ toString n ++
            " col " ++ toString column) := by
  refine ⟨read_eq_iff_parses text, fun commands => ?_, fun fault => ?_,
    fun c n column => ⟨rfl, message_of_misplaced c n column⟩⟩
  · constructor
    · intro passes
      rcases clean_or_misplaced (physicalLines text.toList) with clean | ⟨c, n, column, first⟩
      · rw [read_of_clean clean] at passes
        exact ⟨clean, (Except.ok.inj passes).symm⟩
      · rw [read_of_misplaced first] at passes
        cases passes
    · rintro ⟨clean, rfl⟩
      exact read_of_clean clean
  · constructor
    · intro fails
      rcases clean_or_misplaced (physicalLines text.toList) with clean | ⟨c, n, column, first⟩
      · rw [read_of_clean clean] at fails
        cases fails
      · rw [read_of_misplaced first] at fails
        exact ⟨c, n, column, first, (Except.error.inj fails).symm⟩
    · rintro ⟨c, n, column, first, rfl⟩
      exact read_of_misplaced first

end Texts

end RelCalc.Source
