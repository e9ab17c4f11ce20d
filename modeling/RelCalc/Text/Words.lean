/-
  `Text.Words`: pieces of text joined by a separator.

  Both printed forms of a list, words on a line and lines of a listing, are
  joins.  The join is a structural recursion, so its characters can be computed
  piece by piece.
-/

set_option autoImplicit false

namespace RelCalc.Text

/-- The pieces in order, with the separator between each two neighbours. -/
def joinWith (separator : String) : List String → String
  | [] => ""
  | [piece] => piece
  | piece :: rest => piece ++ separator ++ joinWith separator rest

/-- The words of one line, a blank between each two. -/
def unwords (words : List String) : String := joinWith " " words

/-- The lines of a listing, a newline between each two. -/
def unlines (lines : List String) : String := joinWith "\n" lines

/-- A join puts the separator after a piece that another one follows. -/
theorem joinWith_cons_cons (separator piece next : String) (rest : List String) :
    joinWith separator (piece :: next :: rest) =
      piece ++ separator ++ joinWith separator (next :: rest) := rfl

/-- The characters of a join, piece by piece. -/
theorem toList_joinWith_cons_cons (separator piece next : String) (rest : List String) :
    (joinWith separator (piece :: next :: rest)).toList =
      piece.toList ++ separator.toList ++ (joinWith separator (next :: rest)).toList := by
  simp [joinWith_cons_cons, String.toList_append]

end RelCalc.Text
