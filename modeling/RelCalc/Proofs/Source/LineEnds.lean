/-
  `Proofs.Source.LineEnds`: the two ways to end a line are read alike.

  A carriage return before a newline is skipped, or lies in a comment.  Either way the
  newline starts the next line, with the same columns as if the carriage return were
  not there.  So a text whose carriage returns all stand before newlines is read as the
  text without them: the same commands on the same lines, or the same character is
  misplaced, in the same line and column.
-/
import RelCalc.Source.Reader
import RelCalc.Text.Newline

set_option autoImplicit false

namespace RelCalc.Source

/-- Each carriage return is directly followed by a newline. -/
def ReturnsEndLines (text : List Char) : Prop :=
  ∀ i, text[i]? = some '\r' → text[i + 1]? = some '\n'

instance (text : List Char) : Decidable (ReturnsEndLines text) :=
  decidable_of_iff (∀ i < text.length, text[i]? = some '\r' → text[i + 1]? = some '\n')
    ⟨fun h i found => h i (List.getElem?_eq_some_iff.mp found).1 found, fun h i _ => h i⟩

section ReturnsEndLines

variable {c : Char} {text rest rest' : List Char}

theorem ReturnsEndLines.tail (h : ReturnsEndLines (c :: rest)) : ReturnsEndLines rest :=
  fun i => h (i + 1)

/-- A carriage return does not stand alone. -/
theorem ReturnsEndLines.head (h : ReturnsEndLines ('\r' :: rest)) : rest.head? = some '\n' := by
  rw [List.head?_eq_getElem?]
  exact h 0 rfl

/-- The last character is the same. -/
theorem getLast?_unifyNewlines (h : ReturnsEndLines text) :
    (Text.unifyNewlines text).getLast? = text.getLast? := by
  fun_induction Text.unifyNewlines text with
  | case1 => rfl
  | case2 rest ih =>
    rw [List.getLast?_cons, ih h.tail.tail, List.getLast?_cons_cons, List.getLast?_cons]
  | case3 rest alone =>
    obtain ⟨later, rfl⟩ := List.head?_eq_some_iff.mp h.head
    exact absurd rfl (alone later)
  | case4 c rest _ _ ih => rw [List.getLast?_cons, ih h.tail, List.getLast?_cons]

/-- Texts that are scanned alike still are after one more character, if it ends no line. -/
theorem scan_congr {line column : Nat} {mode : Mode} (notNewline : c ≠ '\n') (notReturn : c ≠ '\r')
    (same : ∀ column mode, scan line column mode rest = scan line column mode rest') :
    scan line column mode (c :: rest) = scan line column mode (c :: rest') := by
  have notReturn (rest : List Char) : ¬ (c = '\r' ∧ rest.head? = some '\n') :=
    fun both => notReturn both.1
  by_cases comment : mode = .comment
  · rw [comment, scan_comment notNewline, scan_comment notNewline, same]
  by_cases gap : Text.isGap c = true
  · rw [scan_gap gap comment, scan_gap gap comment, same]
  rw [Bool.not_eq_true] at gap
  by_cases blank : Text.isBlank c = true
  · rw [scan_misplaced comment blank gap notNewline (notReturn _),
      scan_misplaced comment blank gap notNewline (notReturn _)]
  rw [Bool.not_eq_true] at blank
  cases mode with
  | comment => exact absurd rfl comment
  | word letters => rw [scan_in_word blank, scan_in_word blank, same]
  | gap =>
    by_cases hash : c = '#'
    · rw [hash, scan_hash, scan_hash, same]
    · rw [scan_letter blank hash, scan_letter blank hash, same]

/-- A carriage return before a newline changes nothing. -/
theorem scan_return_newline {line column : Nat} {mode : Mode} :
    scan line column mode ('\r' :: '\n' :: rest) = scan line column mode ('\n' :: rest) := by
  by_cases comment : mode = .comment
  · rw [comment, scan_comment (by decide), scan_newline, scan_newline]
  · rw [scan_return comment, scan_newline, scan_newline]
    cases scan (line + 1) 1 .gap rest <;> rfl

/-- With line ends made one, a text is scanned alike, whatever follows it. -/
theorem scan_unifyNewlines {line column : Nat} {mode : Mode} (h : ReturnsEndLines text)
    (more : List Char) : scan line column mode (Text.unifyNewlines text ++ more) =
      scan line column mode (text ++ more) := by
  fun_induction Text.unifyNewlines text generalizing line column mode with
  | case1 => rfl
  | case2 rest ih =>
    rw [List.cons_append, List.cons_append, List.cons_append, scan_return_newline, scan_newline,
      scan_newline, ih h.tail.tail]
  | case3 rest alone =>
    obtain ⟨later, rfl⟩ := List.head?_eq_some_iff.mp h.head
    exact absurd rfl (alone later)
  | case4 c rest _ notReturn ih =>
    by_cases newline : c = '\n'
    · rw [newline, List.cons_append, List.cons_append, scan_newline, scan_newline, ih h.tail]
    · exact scan_congr newline notReturn fun _ _ => ih h.tail

end ReturnsEndLines

/-- **Both ways to end a line are read alike.**  Where each carriage return is directly followed
by a newline, making line ends one changes nothing about what is read: the commands, their lines,
or the misplaced character with its line and column. -/
theorem read_unifyNewlines {text : String} (h : ReturnsEndLines text.toList) :
    read (String.ofList (Text.unifyNewlines text.toList)) = read text := by
  have same : lexemes (Text.unifyNewlines text.toList) = lexemes text.toList := by
    unfold lexemes terminated
    rw [getLast?_unifyNewlines h]
    split
    · have whole : scan 1 1 .gap (Text.unifyNewlines text.toList ++ []) =
          scan 1 1 .gap (text.toList ++ []) := scan_unifyNewlines h []
      rwa [List.append_nil, List.append_nil] at whole
    · exact scan_unifyNewlines h ['\n']
  rw [read, String.toList_ofList, same]
  rfl

end RelCalc.Source
