/-
  `Proofs.Source.Spacing`: blank lines and comments are not read.

  What is read from a text depends on the words of its lines alone.  A line of blanks, or
  of a comment after blanks, has no words, and a comment at the end of a line adds none.
  An edit that puts one of them into a text moves lines and columns, but the same commands
  are read.
-/
import RelCalc.Proofs.Source.LineFormat

set_option autoImplicit false

namespace RelCalc.Source

/-! ## Pieces -/

/-- The pieces between the newlines of a text, without the carriage returns at their ends. -/
def pieces (text : List Char) : List (List Char) := (text.splitOn '\n').map dropReturn

/-- The words of those lines that have any. -/
def wordsOfLines (lines : List (List Char)) : List (List (List Char)) :=
  (lines.map fun line => wordsOf (codePart line)).filter fun words => words ≠ []

/-- The words of commands. -/
def spelling (commands : List Command) : List (List (List Char)) :=
  commands.map fun command => (command.word :: command.args).map String.toList

section Pieces

/-- The lines of a text are its pieces, but for an empty one after a newline at the end. -/
theorem pieces_eq_physicalLines (text : List Char) :
    pieces text = physicalLines text ∨ pieces text = physicalLines text ++ [[]] := by
  by_cases ends : text.getLast? = some '\n'
  · right
    obtain ⟨before, rfl⟩ := List.getLast?_eq_some_iff.mp ends
    have cut : (before ++ ['\n']).splitOn '\n' = before.splitOn '\n' ++ [[]] :=
      List.splitOn_append_cons_self before []
    rw [pieces, physicalLines, terminated, if_pos ends, cut, List.dropLast_concat, List.map_append]
    rfl
  · left
    have cut : (text ++ ['\n']).splitOn '\n' = text.splitOn '\n' ++ [[]] :=
      List.splitOn_append_cons_self text []
    rw [pieces, physicalLines, terminated, if_neg ends, cut, List.dropLast_concat]

theorem wordsOfLines_append (lines more : List (List Char)) :
    wordsOfLines (lines ++ more) = wordsOfLines lines ++ wordsOfLines more := by
  rw [wordsOfLines, List.map_append, List.filter_append]
  rfl

/-- The commands on lines spell the words of the lines. -/
theorem spelling_of_lines (n : Nat) (lines : List (List Char)) :
    spelling ((lines.zipIdx n).filterMap commandOnLine?) = wordsOfLines lines := by
  induction lines generalizing n with
  | nil => rfl
  | cons line rest ih =>
    rw [List.zipIdx_cons, List.filterMap_cons, wordsOfLines, List.map_cons, List.filter_cons]
    cases words : wordsOf (codePart line) with
    | nil =>
      rw [commandOnLine?, words]
      exact ih (n + 1)
    | cons word args =>
      rw [commandOnLine?, words, if_pos (by simp), ← wordsOfLines, ← ih (n + 1)]
      simp [spelling, Function.comp_def]

/-- Commands that spell the same words are the same. -/
theorem same_of_spelling {commands others : List Command}
    (h : spelling commands = spelling others) :
    List.Forall₂ (fun command other => command.same other = true) commands others := by
  have spelled := h
  rw [spelling, spelling, ← List.forall₂_eq_eq_eq, List.forall₂_map_left_iff,
    List.forall₂_map_right_iff] at spelled
  refine spelled.imp fun command other letters => ?_
  have words := (List.map_injective_iff.mpr fun _ _ => String.toList_inj.mp) letters
  simpa [Command.same] using words

/-- A text is read when the code of its pieces is clean, and their words are what is read. -/
theorem exists_read_iff {text : String} {words : List (List (List Char))} :
    (∃ commands, read text = .ok commands ∧ spelling commands = words) ↔
      (∀ piece ∈ pieces text.toList, Clean (codePart piece)) ∧
        wordsOfLines (pieces text.toList) = words := by
  have empty : Clean (codePart []) := List.forall_mem_nil _
  have clean : (∀ piece ∈ pieces text.toList, Clean (codePart piece)) ↔
      ∀ line ∈ physicalLines text.toList, Clean (codePart line) := by
    rcases pieces_eq_physicalLines text.toList with same | same <;> rw [same]
    simp [or_imp, forall_and, empty]
  have spelled : wordsOfLines (pieces text.toList) = wordsOfLines (physicalLines text.toList) := by
    rcases pieces_eq_physicalLines text.toList with same | same <;> rw [same]
    rw [wordsOfLines_append]
    exact List.append_nil _
  rw [clean, spelled]
  constructor
  · rintro ⟨commands, found, rfl⟩
    have cleans := clean_of_read found
    rw [read_of_clean cleans] at found
    rw [← Except.ok.inj found, spelling_of_lines]
    exact ⟨cleans, rfl⟩
  · rintro ⟨cleans, rfl⟩
    exact ⟨_, read_of_clean cleans, spelling_of_lines 1 _⟩

end Pieces

/-! ## One line -/

/-- A line without words: blanks, and perhaps a comment after them. -/
inductive IsIdle : List Char → Prop where
  | blank {margin : List Char} (gaps : ∀ c ∈ margin, Text.isGap c = true) : IsIdle margin
  | comment {margin body : List Char} (gaps : ∀ c ∈ margin, Text.isGap c = true)
      (single : '\n' ∉ body) : IsIdle (margin ++ '#' :: body)

section Line

variable {line start rest margin body : List Char} {c : Char}

theorem dropReturn_append_cons (solid : c ≠ '\r') :
    dropReturn (start ++ c :: rest) = start ++ c :: dropReturn rest := by
  induction start with
  | nil => exact dropReturn_cons fun both => solid both.1
  | cons d start ih =>
    rw [List.cons_append, dropReturn_cons (by simp), ih]
    rfl

theorem dropReturn_concat (line : List Char) : dropReturn (line ++ ['\r']) = line := by
  simp [dropReturn]

/-- Blanks at the start of a line open no comment. -/
theorem codePart_margin (gaps : ∀ c ∈ margin, Text.isGap c = true) (rest : List Char) :
    codePart (margin ++ rest) = margin ++ codePart rest := by
  induction margin with
  | nil => rfl
  | cons c margin ih =>
    obtain ⟨gap, gaps⟩ := List.forall_mem_cons.mp gaps
    have notHash : c ≠ '#' := by
      rintro rfl
      cases gap
    rw [List.cons_append, codePart, codeFrom, gap, if_neg (by simpa using notHash)]
    exact congrArg (List.cons c) (ih gaps)

/-- The code of a line without words consists of blanks. -/
theorem IsIdle.isGap_of_mem (h : IsIdle line) : ∀ c ∈ codePart line, Text.isGap c = true := by
  cases h with
  | blank gaps =>
    have code := codePart_margin gaps []
    rw [List.append_nil] at code
    rw [code]
    exact List.forall_mem_append.mpr ⟨gaps, List.forall_mem_nil _⟩
  | comment gaps =>
    rw [codePart_margin gaps]
    exact List.forall_mem_append.mpr ⟨gaps, List.forall_mem_nil _⟩

theorem wordsOf_of_gaps (gaps : ∀ c ∈ margin, Text.isGap c = true) : wordsOf margin = [] := by
  induction margin with
  | nil => rfl
  | cons c margin ih =>
    obtain ⟨gap, gaps⟩ := List.forall_mem_cons.mp gaps
    rw [wordsOf_gap gap, ih gaps]

theorem IsIdle.words (h : IsIdle line) : wordsOf (codePart line) = [] :=
  wordsOf_of_gaps h.isGap_of_mem

theorem IsIdle.clean (h : IsIdle line) : Clean (codePart line) := by
  rintro c member ⟨-, notGap⟩
  rw [h.isGap_of_mem c member] at notGap
  cases notGap

theorem IsIdle.newline_not_mem (h : IsIdle line) : '\n' ∉ line := by
  have margins {margin : List Char} (gaps : ∀ c ∈ margin, Text.isGap c = true) :
      '\n' ∉ margin := fun member => absurd (gaps '\n' member) (by decide)
  cases h with
  | blank gaps => exact margins gaps
  | comment gaps single => simp [margins gaps, single]

/-- A carriage return at the end lies in the comment. -/
theorem IsIdle.dropReturn (h : IsIdle line) : IsIdle (dropReturn line) := by
  cases h with
  | blank gaps =>
    have solid : line.getLast? ≠ some '\r' :=
      fun last => absurd (gaps '\r' (List.mem_of_getLast? last)) (by decide)
    rw [Source.dropReturn, if_neg solid]
    exact .blank gaps
  | @comment margin body gaps single =>
    have kept : '\n' ∉ Source.dropReturn body := by
      unfold Source.dropReturn
      split
      · exact fun member => single (List.mem_of_mem_dropLast member)
      · exact single
    rw [dropReturn_append_cons (by decide)]
    exact .comment gaps kept

/-- A comment after a blank adds at most this blank to the code of a line. -/
theorem codeFrom_comment (opens : Bool) (line body : List Char) :
    codeFrom opens (line ++ ' ' :: '#' :: body) = codeFrom opens line ∨
      codeFrom opens (line ++ ' ' :: '#' :: body) = codeFrom opens line ++ [' '] := by
  induction line generalizing opens with
  | nil =>
    right
    cases opens <;> rfl
  | cons c line ih =>
    rw [List.cons_append, codeFrom, codeFrom]
    split
    · exact .inl rfl
    · exact (ih (Text.isGap c)).imp (congrArg (List.cons c)) (congrArg (List.cons c))

theorem wordsOf_comment (line body : List Char) :
    wordsOf (codePart (line ++ ' ' :: '#' :: body)) = wordsOf (codePart line) := by
  rcases codeFrom_comment true line body with code | code <;> rw [codePart, code]
  · rfl
  · exact wordsOf_append_gap rfl

theorem clean_comment (clean : Clean (codePart line)) (body : List Char) :
    Clean (codePart (line ++ ' ' :: '#' :: body)) := by
  rcases codeFrom_comment true line body with code | code <;> rw [codePart, code]
  · exact clean
  · refine List.forall_mem_append.mpr ⟨clean, List.forall_mem_singleton.mpr ?_⟩
    rintro ⟨-, notGap⟩
    cases notGap

end Line

/-! ## Edits -/

/-- The two ways to end a line. -/
def lineEndings : List String := ["\n", "\r\n"]

/-- A text goes over into another when a line without words, or a comment, is put into it. -/
inductive Respaced : String → String → Prop where
  /-- A whole line, at the start of the text or right after a newline. -/
  | line {before line ending after : String} (starts : ∀ c ∈ before.toList.getLast?, c = '\n')
      (idle : IsIdle line.toList) (ends : ending ∈ lineEndings) :
      Respaced (before ++ after) (before ++ line ++ ending ++ after)
  /-- A comment after a blank, right before the end of a line.  A carriage return and a newline end
  a line together. -/
  | comment {before body ending after : String} (single : '\n' ∉ body.toList)
      (ends : ending = "\r\n" ∨ ending = "\n" ∧ before.toList.getLast? ≠ some '\r') :
      Respaced (before ++ ending ++ after) (before ++ " #" ++ body ++ ending ++ after)

section Edits

variable {before line start last : List Char}

theorem pieces_append_cons (before after : List Char) :
    pieces (before ++ '\n' :: after) = pieces before ++ pieces after := by
  rw [pieces, List.splitOn_append_cons_self, List.map_append]
  rfl

theorem pieces_of_not_mem (single : '\n' ∉ line) : pieces line = [dropReturn line] := by
  rw [pieces, List.splitOn_eq_singleton single]
  rfl

/-- Where a line starts, a text can be cut into its pieces. -/
theorem exists_pieces_append (starts : ∀ c ∈ before.getLast?, c = '\n') :
    ∃ lines, ∀ rest, pieces (before ++ rest) = lines ++ pieces rest := by
  cases last : before.getLast? with
  | none =>
    obtain rfl := List.getLast?_eq_none_iff.mp last
    exact ⟨[], fun rest => rfl⟩
  | some c =>
    obtain rfl := starts c last
    obtain ⟨earlier, rfl⟩ := List.getLast?_eq_some_iff.mp last
    refine ⟨pieces earlier, fun rest => ?_⟩
    rw [List.append_assoc]
    exact pieces_append_cons earlier rest

/-- The last line of a text can be cut off. -/
theorem exists_last_line (before : List Char) : ∃ start last, before = start ++ last ∧
    (∀ c ∈ start.getLast?, c = '\n') ∧ '\n' ∉ last := by
  obtain ⟨lines, last, -, whole, each⟩ := exists_splitOn before
  refine ⟨joined lines, last, whole.symm, ?_, each last (by simp)⟩
  rcases List.eq_nil_or_concat lines with rfl | ⟨earlier, line, rfl⟩ <;> simp [joined]

/-- What is written at the end of a line without ending it goes into one piece. -/
theorem exists_pieces_line (before : List Char) : ∃ lines last,
    (before.getLast? ≠ some '\r' → last.getLast? ≠ some '\r') ∧
      ∀ rest after, '\n' ∉ rest →
        pieces (before ++ rest ++ '\n' :: after) =
          lines ++ dropReturn (last ++ rest) :: pieces after := by
  obtain ⟨start, last, rfl, starts, single⟩ := exists_last_line before
  obtain ⟨lines, cut⟩ := exists_pieces_append starts
  refine ⟨lines, last, fun solid => ?_, fun rest after alone => ?_⟩
  · cases last with
    | nil => simp
    | cons c last => rwa [List.getLast?_append_of_ne_nil _ (by simp)] at solid
  · have whole : '\n' ∉ last ++ rest := by simp [single, alone]
    rw [List.append_assoc, List.append_assoc, cut, ← List.append_assoc last, pieces_append_cons,
      pieces_of_not_mem whole]
    rfl

/-- A line without words is a piece without words. -/
theorem pieces_of_line {before line ending after : String}
    (starts : ∀ c ∈ before.toList.getLast?, c = '\n') (idle : IsIdle line.toList)
    (ends : ending ∈ lineEndings) :
    ∃ lines piece, IsIdle piece ∧ pieces (before ++ after).toList = lines ++ pieces after.toList ∧
      pieces (before ++ line ++ ending ++ after).toList =
        lines ++ piece :: pieces after.toList := by
  obtain ⟨lines, cut⟩ := exists_pieces_append starts
  have single := idle.newline_not_mem
  rw [lineEndings, List.mem_pair] at ends
  rcases ends with rfl | rfl
  · refine ⟨lines, dropReturn line.toList, idle.dropReturn, by simp [cut], ?_⟩
    have whole : (before ++ line ++ "\n" ++ after).toList =
        before.toList ++ (line.toList ++ '\n' :: after.toList) := by simp
    rw [whole, cut, pieces_append_cons, pieces_of_not_mem single]
    rfl
  · refine ⟨lines, line.toList, idle, by simp [cut], ?_⟩
    have whole : (before ++ line ++ "\r\n" ++ after).toList =
        before.toList ++ (line.toList ++ ['\r'] ++ '\n' :: after.toList) := by simp
    rw [whole, cut, pieces_append_cons, pieces_of_not_mem (by simp [single]), dropReturn_concat]
    rfl

/-- A comment at the end of a line is a comment at the end of a piece. -/
theorem pieces_of_comment {before body ending after : String} (single : '\n' ∉ body.toList)
    (ends : ending = "\r\n" ∨ ending = "\n" ∧ before.toList.getLast? ≠ some '\r') :
    ∃ lines piece comment,
      pieces (before ++ ending ++ after).toList = lines ++ piece :: pieces after.toList ∧
      pieces (before ++ " #" ++ body ++ ending ++ after).toList =
        lines ++ (piece ++ ' ' :: '#' :: comment) :: pieces after.toList := by
  obtain ⟨lines, last, keeps, cut⟩ := exists_pieces_line before.toList
  have dropped (rest : List Char) : dropReturn (last ++ ' ' :: '#' :: rest) =
      last ++ ' ' :: '#' :: dropReturn rest := by
    rw [List.append_cons, dropReturn_append_cons (by decide), ← List.append_cons]
  rcases ends with rfl | ⟨rfl, solid⟩
  · refine ⟨lines, last, body.toList, ?_, ?_⟩
    · have whole : (before ++ "\r\n" ++ after).toList =
          before.toList ++ ['\r'] ++ '\n' :: after.toList := by simp
      rw [whole, cut _ _ (by simp), dropReturn_concat]
    · have whole : (before ++ " #" ++ body ++ "\r\n" ++ after).toList =
          before.toList ++ ' ' :: '#' :: (body.toList ++ ['\r']) ++ '\n' :: after.toList := by simp
      rw [whole, cut _ _ (by simp [single]), dropped, dropReturn_concat]
  · refine ⟨lines, last, dropReturn body.toList, ?_, ?_⟩
    · have whole : (before ++ "\n" ++ after).toList =
          before.toList ++ [] ++ '\n' :: after.toList := by simp
      rw [whole, cut _ _ (by simp), List.append_nil, dropReturn, if_neg (keeps solid)]
    · have whole : (before ++ " #" ++ body ++ "\n" ++ after).toList =
          before.toList ++ ' ' :: '#' :: body.toList ++ '\n' :: after.toList := by simp
      rw [whole, cut _ _ (by simp [single]), dropped]

/-- Blank lines and comments keep the words of a text, and its code clean. -/
theorem Respaced.keeps_words {text edited : String} (h : Respaced text edited)
    (clean : ∀ piece ∈ pieces text.toList, Clean (codePart piece)) :
    (∀ piece ∈ pieces edited.toList, Clean (codePart piece)) ∧
      wordsOfLines (pieces edited.toList) = wordsOfLines (pieces text.toList) := by
  cases h with
  | line starts idle ends =>
    obtain ⟨lines, piece, idle, cut, cut'⟩ := pieces_of_line starts idle ends
    rw [cut] at clean ⊢
    rw [cut']
    obtain ⟨earlier, later⟩ := List.forall_mem_append.mp clean
    refine ⟨List.forall_mem_append.mpr ⟨earlier, List.forall_mem_cons.mpr ⟨idle.clean, later⟩⟩, ?_⟩
    simp [wordsOfLines, idle.words]
  | comment single ends =>
    obtain ⟨lines, piece, comment, cut, cut'⟩ := pieces_of_comment single ends
    rw [cut] at clean ⊢
    rw [cut']
    obtain ⟨earlier, later⟩ := List.forall_mem_append.mp clean
    obtain ⟨code, later⟩ := List.forall_mem_cons.mp later
    refine ⟨List.forall_mem_append.mpr
      ⟨earlier, List.forall_mem_cons.mpr ⟨clean_comment code comment, later⟩⟩, ?_⟩
    simp [wordsOfLines, wordsOf_comment]

end Edits

/-- **Blank lines and comments are not read.**  A text that is read still is when one is put into
it, and as the same commands. -/
theorem read_of_respaced {text edited : String} {commands : List Command}
    (h : Respaced text edited) (found : read text = .ok commands) :
    ∃ commands', read edited = .ok commands' ∧
      List.Forall₂ (fun command other => command.same other = true) commands commands' := by
  obtain ⟨clean, words⟩ := exists_read_iff.mp ⟨commands, found, rfl⟩
  obtain ⟨clean', words'⟩ := h.keeps_words clean
  obtain ⟨commands', found', spelled⟩ := exists_read_iff.mpr ⟨clean', words'⟩
  exact ⟨commands', found', same_of_spelling (words.symm.trans spelled.symm)⟩

end RelCalc.Source
