/-
  `Proofs.Source.Grammar`: program text by terminals and rules.

  A text is cut into tokens from left to right.  At each position the token is the
  longest piece of text that one of four terminals matches: a run of line ends with the
  blanks after them, a run of blanks, a comment, or a word.  Where none matches, the
  text is malformed.  Blanks and comments are dropped, and the other tokens are derived
  by two rules: a command is one or more words and a run of line ends, and a program is
  a row of commands and runs of line ends.

  The scanner goes through a text character by character and knows neither terminals
  nor rules.  It reads a text as these say, with the same commands and the same faults.
-/
import Mathlib.Computability.Language
import RelCalc.Source.Reader

set_option autoImplicit false

namespace RelCalc.Source

/-! ## Terminals -/

/-- The texts that consist of one character of a class. -/
def one (accepts : Char → Bool) : Language Char := {text | ∃ c, accepts c = true ∧ text = [c]}

open scoped Computability in
/-- The texts that consist of any number of characters of a class. -/
def many (accepts : Char → Bool) : Language Char := (one accepts)∗

/-- The terminals of the grammar. -/
inductive Terminal where
  /-- One or more line ends, each with the blanks after it. -/
  | lineEnds
  /-- One or more blanks. -/
  | gap
  /-- A number sign and the rest of its line. -/
  | comment
  /-- Anything but white space, without a number sign in front. -/
  | word
  deriving DecidableEq, Repr

/-- A line end, with a carriage return before it or without, and the blanks after it. -/
def lineEnd : Language Char := (1 + one (· = '\r')) * one (· = '\n') * many Text.isGap

open scoped Computability in
/-- The texts that a terminal matches. -/
def Terminal.language : Terminal → Language Char
  | lineEnds => lineEnd * lineEnd∗
  | gap => one Text.isGap * many Text.isGap
  | comment => one (· = '#') * many (· ≠ '\n')
  | word => one (fun c => !Text.isBlank c && c ≠ '#') * many fun c => !Text.isBlank c

/-! ## Tokens -/

/-- A piece of text that a terminal matches, and the line it starts on. -/
structure Token where
  terminal : Terminal
  line : Nat
  letters : List Char
  deriving DecidableEq, Repr

/-- The line and the column after some text. -/
def advance (line column : Nat) : List Char → Nat × Nat
  | [] => (line, column)
  | c :: rest => if c = '\n' then advance (line + 1) 1 rest else advance line (column + 1) rest

/-- A terminal matches the first part of a text, and no terminal matches a longer one. -/
structure Matches (terminal : Terminal) (letters rest : List Char) : Prop where
  inside : letters ∈ terminal.language
  longest : ∀ (other : Terminal) (letters' rest' : List Char),
    letters ++ rest = letters' ++ rest' → letters' ∈ other.language →
      letters'.length ≤ letters.length

/-- Tokens of a text, from a line and a column on, or the fault where no terminal matches. -/
inductive Lexes : Nat → Nat → List Char → Except Fault (List Token) → Prop where
  | done (line column : Nat) : Lexes line column [] (.ok [])
  | token {line column line' column' : Nat} {terminal : Terminal} {letters rest : List Char}
      {outcome : Except Fault (List Token)} (matched : Matches terminal letters rest)
      (place : advance line column letters = (line', column'))
      (later : Lexes line' column' rest outcome) :
      Lexes line column (letters ++ rest)
        (outcome.map fun tokens => ⟨terminal, line, letters⟩ :: tokens)
  | stuck {line column : Nat} {c : Char} {rest : List Char}
      (unmatched : ∀ (terminal : Terminal) (letters rest' : List Char),
        c :: rest = letters ++ rest' → letters ∉ terminal.language) :
      Lexes line column (c :: rest)
        (.error (.diagnostic ⟨.misplaced c line column, some line, none⟩))

/-! ## Rules -/

/-- Blanks and comments play no part in the rules. -/
def Terminal.ignored : Terminal → Bool
  | gap | comment => true
  | lineEnds | word => false

/-- The command that words spell; it stands where its first word does. -/
def commandOf (first : Token) (others : List Token) : Command :=
  ⟨String.ofList first.letters, others.map fun token => String.ofList token.letters,
    some first.line⟩

/-- The commands that tokens derive. -/
inductive Derives : List Token → List Command → Prop where
  | nil : Derives [] []
  | lineEnds {token : Token} {tokens : List Token} {commands : List Command}
      (ends : token.terminal = .lineEnds) (later : Derives tokens commands) :
      Derives (token :: tokens) commands
  | command {first token : Token} {others tokens : List Token} {commands : List Command}
      (words : ∀ word ∈ first :: others, word.terminal = .word) (ends : token.terminal = .lineEnds)
      (later : Derives tokens commands) :
      Derives (first :: others ++ token :: tokens) (commandOf first others :: commands)

/-- What a text is, by terminals and rules. -/
inductive Parses (text : String) : Except Fault (List Command) → Prop where
  | commands {tokens : List Token} {commands : List Command}
      (lexed : Lexes 1 1 (terminated text.toList) (.ok tokens))
      (derived : Derives (tokens.filter fun token => !token.terminal.ignored) commands) :
      Parses text (.ok commands)
  | misplaced {fault : Fault} (lexed : Lexes 1 1 (terminated text.toList) (.error fault)) :
      Parses text (.error fault)

/-! ## What terminals match -/

section Language

variable {accepts : Char → Bool} {text letters : List Char} {language : Language Char}

theorem mem_many_iff : text ∈ many accepts ↔ ∀ c ∈ text, accepts c = true := by
  rw [many, Language.mem_kstar]
  constructor
  · rintro ⟨pieces, rfl, single⟩ c member
    obtain ⟨piece, inside, held⟩ := List.mem_flatten.mp member
    obtain ⟨c', accepted, rfl⟩ := single piece inside
    rwa [List.mem_singleton.mp held]
  · intro accepted
    refine ⟨text.map fun c => [c], ?_, fun piece inside => ?_⟩
    · rw [← List.flatMap_def, List.flatMap_singleton']
    · obtain ⟨c, member, rfl⟩ := List.mem_map.mp inside
      exact ⟨c, accepted c member, rfl⟩

theorem mem_one_mul_iff : text ∈ one accepts * language ↔
    ∃ c rest, text = c :: rest ∧ accepts c = true ∧ rest ∈ language := by
  rw [Language.mem_mul]
  constructor
  · rintro ⟨_, ⟨c, accepted, rfl⟩, rest, inside, rfl⟩
    exact ⟨c, rest, rfl, accepted, inside⟩
  · rintro ⟨c, rest, rfl, accepted, inside⟩
    exact ⟨[c], ⟨c, accepted, rfl⟩, rest, inside, rfl⟩

theorem mem_lineEnd_iff : text ∈ lineEnd ↔ ∃ blanks, (∀ c ∈ blanks, Text.isGap c = true) ∧
    (text = '\n' :: blanks ∨ text = '\r' :: '\n' :: blanks) := by
  simp only [lineEnd, mul_assoc, add_mul, one_mul, Language.mem_add, mem_one_mul_iff, mem_many_iff,
    decide_eq_true_eq]
  constructor
  · rintro (⟨_, blanks, rfl, rfl, gaps⟩ | ⟨_, _, rfl, rfl, _, blanks, rfl, rfl, gaps⟩)
    · exact ⟨blanks, gaps, .inl rfl⟩
    · exact ⟨blanks, gaps, .inr rfl⟩
  · rintro ⟨blanks, gaps, rfl | rfl⟩
    · exact .inl ⟨_, blanks, rfl, rfl, gaps⟩
    · exact .inr ⟨_, _, rfl, rfl, _, blanks, rfl, rfl, gaps⟩

theorem mem_lineEnds_iff : letters ∈ Terminal.lineEnds.language ↔
    ∃ first pieces, letters = first ++ List.flatten pieces ∧
      ∀ piece ∈ first :: pieces, piece ∈ lineEnd := by
  rw [Terminal.language, Language.mem_mul]
  simp only [Language.mem_kstar, List.forall_mem_cons]
  constructor
  · rintro ⟨first, hfirst, _, ⟨pieces, rfl, each⟩, rfl⟩
    exact ⟨first, pieces, rfl, hfirst, each⟩
  · rintro ⟨first, pieces, rfl, hfirst, each⟩
    exact ⟨first, hfirst, _, ⟨pieces, rfl, each⟩, rfl⟩

theorem mem_gap_iff : letters ∈ Terminal.gap.language ↔
    letters ≠ [] ∧ ∀ c ∈ letters, Text.isGap c = true := by
  rw [Terminal.language, mem_one_mul_iff]
  constructor
  · rintro ⟨c, rest, rfl, gap, gaps⟩
    exact ⟨List.cons_ne_nil _ _, List.forall_mem_cons.mpr ⟨gap, mem_many_iff.mp gaps⟩⟩
  · rintro ⟨nonempty, gaps⟩
    obtain ⟨c, rest, rfl⟩ := List.exists_cons_of_ne_nil nonempty
    obtain ⟨gap, gaps⟩ := List.forall_mem_cons.mp gaps
    exact ⟨c, rest, rfl, gap, mem_many_iff.mpr gaps⟩

theorem mem_comment_iff : letters ∈ Terminal.comment.language ↔
    ∃ body, letters = '#' :: body ∧ '\n' ∉ body := by
  rw [Terminal.language, mem_one_mul_iff]
  simp only [mem_many_iff, decide_eq_true_eq]
  constructor
  · rintro ⟨_, body, rfl, rfl, inside⟩
    exact ⟨body, rfl, fun member => inside _ member rfl⟩
  · rintro ⟨body, rfl, outside⟩
    exact ⟨_, body, rfl, rfl, fun c member same => outside (same ▸ member)⟩

theorem mem_word_iff : letters ∈ Terminal.word.language ↔
    ∃ c rest, letters = c :: rest ∧ c ≠ '#' ∧ ∀ d ∈ c :: rest, Text.isBlank d = false := by
  rw [Terminal.language, mem_one_mul_iff]
  simp only [mem_many_iff, Bool.and_eq_true, Bool.not_eq_true', decide_eq_true_eq,
    List.forall_mem_cons]
  constructor
  · rintro ⟨c, rest, rfl, ⟨first, notHash⟩, others⟩
    exact ⟨c, rest, rfl, notHash, first, others⟩
  · rintro ⟨c, rest, rfl, notHash, first, others⟩
    exact ⟨c, rest, rfl, ⟨first, notHash⟩, others⟩

/-- No terminal matches the empty text. -/
theorem ne_nil_of_mem {terminal : Terminal} (inside : letters ∈ terminal.language) :
    letters ≠ [] := by
  rintro rfl
  cases terminal with
  | lineEnds =>
    obtain ⟨first, pieces, same, each⟩ := mem_lineEnds_iff.mp inside
    obtain ⟨rfl, -⟩ := List.append_eq_nil_iff.mp same.symm
    obtain ⟨blanks, -, empty | empty⟩ := mem_lineEnd_iff.mp (each [] List.mem_cons_self)
    · cases empty
    · cases empty
  | gap => exact (mem_gap_iff.mp inside).1 rfl
  | comment =>
    obtain ⟨body, empty, -⟩ := mem_comment_iff.mp inside
    cases empty
  | word =>
    obtain ⟨c, rest, empty, -⟩ := mem_word_iff.mp inside
    cases empty

end Language

/-! ## Tokens and the scanner -/

section Scan

variable {line column : Nat} {letters rest first more : List Char} {c : Char}

theorem advance_append : advance line column (first ++ more) =
    advance (advance line column first).1 (advance line column first).2 more := by
  induction first generalizing line column with
  | nil => rfl
  | cons c first ih =>
    rw [List.cons_append, advance, advance]
    split
    · exact ih
    · exact ih

/-- The column after a character and more text. -/
theorem column_cons (column : Nat) (c : Char) (rest : List Char) :
    column + (c :: rest).length = column + 1 + rest.length := by
  rw [List.length_cons]
  omega

theorem advance_of_not_mem (h : '\n' ∉ letters) :
    advance line column letters = (line, column + letters.length) := by
  induction letters generalizing column with
  | nil => rfl
  | cons c rest ih =>
    rw [List.mem_cons, not_or] at h
    rw [advance, if_neg (Ne.symm h.1), ih h.2, column_cons]

/-- Lexemes in front of what the rest of a text gives. -/
def before (lexemes : List Lexeme) (outcome : Except Fault (List Lexeme)) :
    Except Fault (List Lexeme) := outcome.map fun later => lexemes ++ later

@[simp] theorem before_nil (outcome : Except Fault (List Lexeme)) :
    before [] outcome = outcome := by
  cases outcome <;> rfl

theorem before_append (a b : List Lexeme) (outcome : Except Fault (List Lexeme)) :
    before (a ++ b) outcome = before a (before b outcome) := by
  cases outcome with
  | error fault => rfl
  | ok later => simp [before, Except.map]

theorem scan_gaps (gaps : ∀ c ∈ letters, Text.isGap c = true) :
    scan line column .gap (letters ++ rest) = scan line (column + letters.length) .gap rest := by
  induction letters generalizing column with
  | nil => rfl
  | cons c more ih =>
    obtain ⟨gap, gaps⟩ := List.forall_mem_cons.mp gaps
    rw [List.cons_append, scan_gap gap (by simp), ih gaps, column_cons]
    exact before_nil _

theorem newline_not_mem_of_gaps (gaps : ∀ c ∈ letters, Text.isGap c = true) : '\n' ∉ letters :=
  fun member => absurd (gaps _ member) (by decide)

theorem scan_newline_gaps (gaps : ∀ c ∈ letters, Text.isGap c = true) :
    scan line column .gap ('\n' :: letters ++ rest) =
      before [.lineEnd] (scan (line + 1) (1 + letters.length) .gap rest) := by
  rw [List.cons_append, scan_newline, scan_gaps gaps]
  rfl

theorem scan_lineEnd (inside : letters ∈ lineEnd) :
    scan line column .gap (letters ++ rest) =
      before (.replicate (letters.count '\n') .lineEnd)
        (scan (advance line column letters).1 (advance line column letters).2 .gap rest) := by
  obtain ⟨blanks, gaps, rfl | rfl⟩ := mem_lineEnd_iff.mp inside
  · have single : ('\n' :: blanks).count '\n' = 1 := by
      rw [List.count_cons_self, List.count_eq_zero.mpr (newline_not_mem_of_gaps gaps)]
    rw [scan_newline_gaps gaps, single, advance, if_pos rfl,
      advance_of_not_mem (newline_not_mem_of_gaps gaps)]
    rfl
  · have single : ('\r' :: '\n' :: blanks).count '\n' = 1 := by
      rw [List.count_cons_of_ne (by decide), List.count_cons_self,
        List.count_eq_zero.mpr (newline_not_mem_of_gaps gaps)]
    rw [List.cons_append, List.cons_append, scan_return (by simp), ← List.cons_append,
      scan_newline_gaps gaps, single, advance, if_neg (by decide), advance, if_pos rfl,
      advance_of_not_mem (newline_not_mem_of_gaps gaps)]
    exact before_nil _

/-- Line ends one after the other. -/
theorem scan_lineEnds {pieces : List (List Char)} (inside : ∀ piece ∈ pieces, piece ∈ lineEnd) :
    scan line column .gap (pieces.flatten ++ rest) =
      before (.replicate (pieces.flatten.count '\n') .lineEnd)
        (scan (advance line column pieces.flatten).1 (advance line column pieces.flatten).2
          .gap rest) := by
  induction pieces generalizing line column with
  | nil => exact (before_nil _).symm
  | cons piece pieces ih =>
    obtain ⟨first, others⟩ := List.forall_mem_cons.mp inside
    rw [List.flatten_cons, List.append_assoc, scan_lineEnd first, ih others, List.count_append,
      ← List.replicate_append_replicate, before_append, advance_append]

theorem scan_in_words (inside : ∀ c ∈ more, Text.isBlank c = false) :
    scan line column (.word letters) (more ++ rest) =
      scan line (column + more.length) (.word (more.reverse ++ letters)) rest := by
  induction more generalizing column letters with
  | nil => rfl
  | cons c more ih =>
    obtain ⟨first, others⟩ := List.forall_mem_cons.mp inside
    rw [List.cons_append, scan_in_word first, ih others, column_cons, List.reverse_cons,
      List.append_assoc]
    rfl

/-- Where a word cannot go on, it is closed. -/
theorem scan_end_of_word (ends : ∀ c, rest.head? = some c → Text.isBlank c = true) :
    scan line column (.word letters) rest =
      before [.word line letters.reverse] (scan line column .gap rest) := by
  cases rest with
  | nil => rfl
  | cons c rest =>
    have blank := ends c rfl
    by_cases newline : c = '\n'
    · subst newline
      rw [scan_newline, scan_newline]
      cases scan (line + 1) 1 .gap rest <;> rfl
    by_cases gap : Text.isGap c = true
    · rw [scan_gap gap (by simp), scan_gap gap (by simp)]
      cases scan line (column + 1) .gap rest <;> rfl
    rw [Bool.not_eq_true] at gap
    by_cases atEnd : c = '\r' ∧ rest.head? = some '\n'
    · obtain ⟨rfl, head⟩ := atEnd
      obtain ⟨rest, rfl⟩ := List.head?_eq_some_iff.mp head
      rw [scan_return (by simp), scan_return (by simp)]
      cases scan line (column + 1) .gap ('\n' :: rest) <;> rfl
    · rw [scan_misplaced (by simp) blank gap newline atEnd,
        scan_misplaced (by simp) blank gap newline atEnd]
      rfl

theorem scan_in_comment (inside : '\n' ∉ letters) :
    scan line column .comment (letters ++ rest) =
      scan line (column + letters.length) .comment rest := by
  induction letters generalizing column with
  | nil => rfl
  | cons c letters ih =>
    rw [List.mem_cons, not_or] at inside
    rw [List.cons_append, scan_comment (Ne.symm inside.1), ih inside.2, column_cons]

/-- A comment ends where its line does. -/
theorem scan_end_of_comment (ends : ∀ c, rest.head? = some c → c = '\n') :
    scan line column .comment rest = scan line column .gap rest := by
  cases rest with
  | nil => rfl
  | cons c rest =>
    obtain rfl := ends c rfl
    rw [scan_newline, scan_newline]
    rfl

/-- What the scanner makes of a token. -/
def Token.lexemes (token : Token) : List Lexeme :=
  match token.terminal with
  | .lineEnds => .replicate (token.letters.count '\n') .lineEnd
  | .word => [.word token.line token.letters]
  | .gap | .comment => []

/-- The scanner goes through a token and gives its lexemes. -/
theorem scan_token {terminal : Terminal} (matched : Matches terminal letters rest) :
    scan line column .gap (letters ++ rest) =
      before (Token.lexemes ⟨terminal, line, letters⟩)
        (scan (advance line column letters).1 (advance line column letters).2 .gap rest) := by
  -- One more character that the terminal accepts would make a longer match.
  have longer {c : Char} {rest' : List Char} (same : rest = c :: rest')
      (inside : letters ++ [c] ∈ terminal.language) : False := by
    have bound := matched.longest terminal (letters ++ [c]) rest' (by simp [same]) inside
    rw [List.length_append, List.length_singleton] at bound
    omega
  cases terminal with
  | lineEnds =>
    obtain ⟨first, pieces, rfl, each⟩ := mem_lineEnds_iff.mp matched.inside
    exact scan_lineEnds each
  | gap =>
    have gaps := (mem_gap_iff.mp matched.inside).2
    rw [scan_gaps gaps, advance_of_not_mem (newline_not_mem_of_gaps gaps)]
    exact (before_nil _).symm
  | comment =>
    obtain ⟨body, rfl, outside⟩ := mem_comment_iff.mp matched.inside
    have noNewline : '\n' ∉ '#' :: body := by simp [outside]
    rw [List.cons_append, scan_hash, scan_in_comment outside, scan_end_of_comment,
      advance_of_not_mem noNewline]
    · rw [List.length_cons, Nat.add_right_comm, Nat.add_assoc]
      exact (before_nil _).symm
    · intro c head
      obtain ⟨rest', same⟩ := List.head?_eq_some_iff.mp head
      by_contra notNewline
      have outside' : '\n' ∉ body ++ [c] := by simp [outside, Ne.symm notNewline]
      exact longer same (mem_comment_iff.mpr ⟨body ++ [c], rfl, outside'⟩)
  | word =>
    obtain ⟨first, others, rfl, notHash, solid⟩ := mem_word_iff.mp matched.inside
    obtain ⟨firstSolid, othersSolid⟩ := List.forall_mem_cons.mp solid
    have noNewline : '\n' ∉ first :: others := by
      intro member
      exact absurd (solid _ member) (by decide)
    rw [List.cons_append, scan_letter firstSolid notHash, scan_in_words othersSolid,
      scan_end_of_word, advance_of_not_mem noNewline]
    · rw [List.length_cons, Nat.add_right_comm, Nat.add_assoc, List.reverse_append,
        List.reverse_reverse]
      rfl
    · intro c head
      obtain ⟨rest', same⟩ := List.head?_eq_some_iff.mp head
      by_contra notBlank
      rw [Bool.not_eq_true] at notBlank
      refine longer same (mem_word_iff.mpr ⟨first, others ++ [c], rfl, notHash, ?_⟩)
      intro d member
      rw [← List.cons_append, List.mem_append, List.mem_singleton] at member
      rcases member with member | rfl
      · exact solid d member
      · exact notBlank

/-- Where no terminal matches, the scanner finds a misplaced character. -/
theorem scan_stuck (unmatched : ∀ (terminal : Terminal) (letters rest' : List Char),
    c :: rest = letters ++ rest' → letters ∉ terminal.language) :
    scan line column .gap (c :: rest) =
      .error (.diagnostic ⟨.misplaced c line column, some line, none⟩) := by
  have notGap : Text.isGap c = false := by
    by_contra gap
    exact unmatched .gap [c] rest rfl (mem_gap_iff.mpr (by simpa using gap))
  have notNewline : c ≠ '\n' := by
    rintro rfl
    exact unmatched .lineEnds ['\n'] rest rfl
      (mem_lineEnds_iff.mpr ⟨['\n'], [], rfl, by simp [mem_lineEnd_iff]⟩)
  have notReturn : ¬ (c = '\r' ∧ rest.head? = some '\n') := by
    rintro ⟨rfl, head⟩
    obtain ⟨rest, rfl⟩ := List.head?_eq_some_iff.mp head
    exact unmatched .lineEnds ['\r', '\n'] rest rfl
      (mem_lineEnds_iff.mpr ⟨['\r', '\n'], [], rfl, by simp [mem_lineEnd_iff]⟩)
  have notHash : c ≠ '#' := by
    rintro rfl
    exact unmatched .comment ['#'] rest rfl (mem_comment_iff.mpr ⟨[], rfl, by simp⟩)
  have blank : Text.isBlank c = true := by
    by_contra solid
    rw [Bool.not_eq_true] at solid
    exact unmatched .word [c] rest rfl (mem_word_iff.mpr ⟨c, [], rfl, notHash, by simp [solid]⟩)
  exact scan_misplaced (by simp) blank notGap notNewline notReturn

/-- The scanner gives the lexemes of all tokens, or the same fault. -/
theorem scan_of_lexes {text : List Char} {outcome : Except Fault (List Token)}
    (lexed : Lexes line column text outcome) :
    scan line column .gap text = outcome.map fun tokens => tokens.flatMap Token.lexemes := by
  induction lexed with
  | done => rfl
  | @token line column line' column' terminal letters rest outcome matched place _ ih =>
    rw [scan_token matched, place, ih]
    cases outcome <;> rfl
  | stuck unmatched => exact scan_stuck unmatched

end Scan

/-! ## Tokens of a text -/

section Lexes

variable {line column : Nat} {text letters : List Char} {tokens : List Token}
  {outcome : Except Fault (List Token)}

/-- Every text is cut into tokens up to its end or to a fault. -/
theorem exists_lexes (line column : Nat) (text : List Char) :
    ∃ outcome, Lexes line column text outcome := by
  induction length : text.length using Nat.strong_induction_on generalizing line column text with
  | _ size ih =>
    cases text with
    | nil => exact ⟨_, .done line column⟩
    | cons c rest =>
      -- Of the pieces that terminals match here, if there are any, one is longest.
      let Fits (n : Nat) : Prop := ∃ (terminal : Terminal) (letters rest' : List Char),
        c :: rest = letters ++ rest' ∧ letters ∈ terminal.language ∧ letters.length = n
      by_cases some : ∃ n, Fits n
      · classical
        obtain ⟨n, fits⟩ := some
        have bound (m : Nat) (fits : Fits m) : m ≤ size := by
          obtain ⟨_, letters, rest', same, -, rfl⟩ := fits
          rw [← length, same, List.length_append]
          omega
        have longestFits : Fits (Nat.findGreatest Fits size) :=
          Nat.findGreatest_spec (bound n fits) fits
        obtain ⟨terminal, letters, rest', same, inside, longest⟩ := longestFits
        have matched : Matches terminal letters rest' := by
          refine ⟨inside, fun other letters' rest'' same' inside' => ?_⟩
          have fits' : Fits letters'.length :=
            ⟨other, letters', rest'', same.trans same', inside', rfl⟩
          rw [longest]
          exact Nat.le_findGreatest (bound _ fits') fits'
        have shorter : rest'.length < size := by
          have positive := List.length_pos_of_ne_nil (ne_nil_of_mem inside)
          rw [← length, same, List.length_append]
          omega
        rw [same]
        obtain ⟨outcome, later⟩ := ih rest'.length shorter (advance line column letters).1
          (advance line column letters).2 rest' rfl
        exact ⟨_, .token matched rfl later⟩
      · refine ⟨_, .stuck fun terminal letters rest' same inside => ?_⟩
        exact some ⟨letters.length, terminal, letters, rest', same, inside, rfl⟩

/-- The tokens of a text are its pieces in order, each matched by its terminal. -/
theorem pieces_of_lexes (lexed : Lexes line column text outcome) (passes : outcome = .ok tokens) :
    tokens.flatMap Token.letters = text ∧
      ∀ token ∈ tokens, token.letters ∈ token.terminal.language := by
  induction lexed generalizing tokens with
  | done =>
    cases passes
    simp
  | @token _ _ _ _ terminal letters rest outcome matched _ _ ih =>
    cases outcome with
    | error fault => cases passes
    | ok later =>
      cases passes
      obtain ⟨whole, each⟩ := ih rfl
      refine ⟨by rw [List.flatMap_cons, whole], List.forall_mem_cons.mpr ⟨matched.inside, each⟩⟩
  | stuck => cases passes

/-- Only line ends hold a newline, and they hold one. -/
theorem newline_mem_iff {terminal : Terminal} (inside : letters ∈ terminal.language) :
    '\n' ∈ letters ↔ terminal = .lineEnds := by
  cases terminal with
  | lineEnds =>
    obtain ⟨first, pieces, rfl, each⟩ := mem_lineEnds_iff.mp inside
    obtain ⟨blanks, -, rfl | rfl⟩ := mem_lineEnd_iff.mp (each first List.mem_cons_self)
    · simp
    · simp
  | gap =>
    have outside := newline_not_mem_of_gaps (mem_gap_iff.mp inside).2
    simp [outside]
  | comment =>
    obtain ⟨body, rfl, outside⟩ := mem_comment_iff.mp inside
    simp [outside]
  | word =>
    obtain ⟨c, rest, rfl, -, solid⟩ := mem_word_iff.mp inside
    have outside : '\n' ∉ c :: rest := fun member => absurd (solid _ member) (by decide)
    simp only [outside, reduceCtorEq]

/-- A text that ends with a newline ends with a token of line ends. -/
theorem exists_last_of_lexes (lexed : Lexes line column text (.ok tokens))
    (ends : text.getLast? = some '\n') :
    ∃ init last, tokens = init ++ [last] ∧ last.terminal = .lineEnds := by
  obtain ⟨rfl, each⟩ := pieces_of_lexes lexed rfl
  rcases List.eq_nil_or_concat tokens with rfl | ⟨init, last, rfl⟩
  · cases ends
  · rw [List.concat_eq_append] at each ends ⊢
    have inside := each last (by simp)
    refine ⟨init, last, rfl, (newline_mem_iff inside).mp ?_⟩
    rw [List.flatMap_append, List.flatMap_singleton,
      List.getLast?_append_of_ne_nil _ (ne_nil_of_mem inside)] at ends
    exact List.mem_of_getLast? ends

end Lexes

/-! ## Commands of tokens -/

section Derives

variable {tokens : List Token} {commands : List Command}

theorem exists_derives_cons {token : Token} (isWord : token.terminal = .word)
    (derived : Derives tokens commands) (some : tokens ≠ []) :
    ∃ commands', Derives (token :: tokens) commands' := by
  cases derived with
  | nil => exact absurd rfl some
  | lineEnds ends later =>
    have single : ∀ word ∈ [token], word.terminal = .word := by simpa using isWord
    exact ⟨_, .command single ends later⟩
  | command words ends later =>
    exact ⟨_, .command (List.forall_mem_cons.mpr ⟨isWord, words⟩) ends later⟩

/-- Words and line ends in any order, with line ends last, derive commands. -/
theorem exists_derives {last : Token} (ends : last.terminal = .lineEnds)
    (significant : ∀ token ∈ tokens, token.terminal.ignored = false) :
    ∃ commands, Derives (tokens ++ [last]) commands := by
  induction tokens with
  | nil => exact ⟨_, .lineEnds ends .nil⟩
  | cons token rest ih =>
    obtain ⟨first, others⟩ := List.forall_mem_cons.mp significant
    obtain ⟨commands, derived⟩ := ih others
    cases kind : token.terminal with
    | lineEnds => exact ⟨_, .lineEnds kind derived⟩
    | word => exact exists_derives_cons kind derived (by simp)
    | gap | comment =>
      rw [kind] at first
      cases first

theorem commandsOf_lineEnd (later : List Lexeme) :
    commandsOf (.lineEnd :: later) = commandsOf later :=
  rfl

theorem commandsOf_lineEnds (n : Nat) (later : List Lexeme) :
    commandsOf (.replicate n .lineEnd ++ later) = commandsOf later := by
  induction n with
  | zero => rfl
  | succ n ih =>
    rw [List.replicate_succ, List.cons_append, commandsOf_lineEnd, ih]

/-- The words before a line end are one line. -/
theorem wordLines_of_words (words : List (Nat × List Char)) (later : List Lexeme) :
    wordLines (words.map (fun word => .word word.1 word.2) ++ .lineEnd :: later) =
      words :: wordLines later := by
  induction words with
  | nil => rfl
  | cons word words ih =>
    rw [List.map_cons, List.cons_append, wordLines, ih]

theorem lexemes_of_words {words : List Token} (each : ∀ word ∈ words, word.terminal = .word) :
    words.flatMap Token.lexemes =
      (words.map fun word => (word.line, word.letters)).map fun word => .word word.1 word.2 := by
  induction words with
  | nil => rfl
  | cons word words ih =>
    obtain ⟨first, others⟩ := List.forall_mem_cons.mp each
    rw [List.flatMap_cons, ih others, Token.lexemes, first]
    rfl

/-- The scanner's lines of words are the commands that the rules derive. -/
theorem commandsOf_of_derives (derived : Derives tokens commands)
    (formed : ∀ token ∈ tokens, token.letters ∈ token.terminal.language) :
    commandsOf (tokens.flatMap Token.lexemes) = commands := by
  induction derived with
  | nil => rfl
  | @lineEnds token tokens commands ends later ih =>
    obtain ⟨-, others⟩ := List.forall_mem_cons.mp formed
    rw [List.flatMap_cons, Token.lexemes, ends, commandsOf_lineEnds, ih others]
  | @command first token others tokens commands words ends later ih =>
    obtain ⟨-, formed⟩ := List.forall_mem_append.mp formed
    obtain ⟨inside, others'⟩ := List.forall_mem_cons.mp formed
    -- A token of line ends holds a newline, so the words before it are a line of their own.
    have newline : 0 < token.letters.count '\n' :=
      List.count_pos_iff.mpr ((newline_mem_iff inside).mpr ends)
    obtain ⟨n, count⟩ := Nat.exists_eq_succ_of_ne_zero (Nat.pos_iff_ne_zero.mp newline)
    have line : token.lexemes = .lineEnd :: .replicate n .lineEnd := by
      rw [Token.lexemes, ends]
      show List.replicate (token.letters.count '\n') Lexeme.lineEnd = _
      rw [count]
      rfl
    have later' : commandsOf (.replicate n .lineEnd ++ tokens.flatMap Token.lexemes) =
        commands := by
      rw [commandsOf_lineEnds, ih others']
    rw [List.flatMap_append, lexemes_of_words words, List.flatMap_cons, line, List.cons_append,
      commandsOf, wordLines_of_words, ← later', commandsOf, List.map_cons, List.filterMap_cons,
      commandOfWords?, commandOf, List.map_map]
    rfl

end Derives

/-! ## Reading by terminals and rules -/

theorem getLast?_terminated (text : List Char) : (terminated text).getLast? = some '\n' := by
  unfold terminated
  split
  · assumption
  · exact List.getLast?_concat

/-- What is ignored gives no lexemes. -/
theorem flatMap_lexemes_filter (tokens : List Token) :
    (tokens.filter fun token => !token.terminal.ignored).flatMap Token.lexemes =
      tokens.flatMap Token.lexemes := by
  induction tokens with
  | nil => rfl
  | cons token tokens ih =>
    rw [List.filter_cons, List.flatMap_cons]
    cases ignored : token.terminal.ignored with
    | true =>
      have nothing : token.lexemes = [] := by
        unfold Token.lexemes
        cases kind : token.terminal <;> rw [kind] at ignored <;> first | rfl | cases ignored
      rw [nothing]
      exact ih
    | false => rw [if_pos (show (!false) = true from rfl), List.flatMap_cons, ih]

theorem exists_parses (text : String) : ∃ outcome, Parses text outcome := by
  obtain ⟨outcome, lexed⟩ := exists_lexes 1 1 (terminated text.toList)
  cases outcome with
  | error fault => exact ⟨_, .misplaced lexed⟩
  | ok tokens =>
    obtain ⟨init, last, rfl, ends⟩ := exists_last_of_lexes lexed (getLast?_terminated _)
    have significant : ∀ token ∈ init.filter fun token => !token.terminal.ignored,
        token.terminal.ignored = false := by simp
    obtain ⟨commands, derived⟩ := exists_derives ends significant
    refine ⟨.ok commands, .commands lexed ?_⟩
    have kept : (!last.terminal.ignored) = true := by rw [ends]; rfl
    rw [List.filter_append, List.filter_singleton, kept]
    exact derived

/-- **Reading follows the grammar.**  What a text is read as, commands or a fault, is what its
terminals and rules say, and they always say one thing. -/
theorem read_eq_iff_parses (text : String) (outcome : Except Fault (List Command)) :
    read text = outcome ↔ Parses text outcome := by
  have sound (outcome : Except Fault (List Command)) (parses : Parses text outcome) :
      read text = outcome := by
    cases parses with
    | @commands tokens commands lexed derived =>
      obtain ⟨-, formed⟩ := pieces_of_lexes lexed rfl
      have significant :
          (tokens.filter fun token => !token.terminal.ignored).flatMap Token.lexemes =
            tokens.flatMap Token.lexemes := flatMap_lexemes_filter tokens
      rw [read, lexemes, scan_of_lexes lexed, ← commandsOf_of_derives derived fun token member =>
        formed token (List.mem_of_mem_filter member), significant]
      rfl
    | misplaced lexed =>
      rw [read, lexemes, scan_of_lexes lexed]
      rfl
  constructor
  · rintro rfl
    obtain ⟨outcome, parses⟩ := exists_parses text
    rwa [sound outcome parses]
  · exact sound outcome

end RelCalc.Source
