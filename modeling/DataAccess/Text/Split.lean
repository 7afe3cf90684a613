import DataAccess.Unicode.Blank

set_option autoImplicit false

/-! # Cutting texts into pieces

Pieces between separators (`splitBy`), words between white space (`words`), lines (`lineChars`,
`lines`), and a text without the white space at its ends (`trim`). The work is done on lists of
characters; the versions on `String` only convert. -/

namespace DataAccess.Text

open DataAccess.Unicode

/-! ## Pieces -/

/-- The pieces between the characters that satisfy `p`; there is always at least one piece. -/
def splitBy (p : Char → Bool) : List Char → List (List Char)
  | [] => [[]]
  | c :: cs =>
    if p c then [] :: splitBy p cs
    else match splitBy p cs with
      | [] => [[c]]
      | piece :: pieces => (c :: piece) :: pieces

theorem splitBy_ne_nil (p : Char → Bool) (cs : List Char) : splitBy p cs ≠ [] := by
  cases cs with
  | nil => simp [splitBy]
  | cons c cs =>
      unfold splitBy
      split
      · simp
      · split <;> simp

/-- The non-empty pieces between white space. -/
def words (s : String) : List String :=
  ((splitBy isBlank s.toList).filter fun w => !w.isEmpty).map String.ofList

/-- A text without the white space at either end. -/
def trim (s : String) : String :=
  String.ofList ((s.toList.dropWhile isBlank).reverse.dropWhile isBlank).reverse

/-! ## Lines -/

/-- A line without a carriage return at its end. -/
def dropReturn : List Char → List Char
  | [] => []
  | [c] => if c = '\r' then [] else [c]
  | c :: d :: cs => c :: dropReturn (d :: cs)

/-- The lines among the pieces between line feeds: a piece that a line feed ends also loses a
carriage return before it, and an empty last piece is no line. -/
def closeLines : List (List Char) → List (List Char)
  | [] => []
  | [piece] => if piece.isEmpty then [] else [piece]
  | piece :: next :: rest => dropReturn piece :: closeLines (next :: rest)

/-- The lines of a text. -/
def lineChars (cs : List Char) : List (List Char) :=
  closeLines (splitBy (· == '\n') cs)

/-- The lines of a text. -/
def lines (s : String) : List String := (lineChars s.toList).map String.ofList

end DataAccess.Text
