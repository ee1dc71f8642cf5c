import PollScript.Text.Blank

/-!
# Lines

Generated code is text that is edited by lines: a body is indented line by
line, and a finished script is put into a normal form. Lines end at line feeds
and nowhere else, so a carriage return is an ordinary blank of its line.

Results:

* `joinLines_lines`: cutting a text into lines and joining them gives it back.
-/

namespace PollScript.Text

/-- Puts a character in front of the first line, where a line feed starts a
    new one. -/
def consLine (c : Char) (rest : List (List Char)) : List (List Char) :=
  if c = '\n' then [] :: rest
  else match rest with
    | [] => [[c]]
    | line :: more => (c :: line) :: more

/-- The lines of a text, without their line feeds. A text with `n` line feeds
    has `n + 1` lines, the last of which may be empty. -/
def lines (cs : List Char) : List (List Char) :=
  cs.foldr consLine [[]]

/-- Puts a character in front of the first piece, where a line feed is a piece
    that ends. -/
def consPiece (c : Char) (rest : List (List Char)) : List (List Char) :=
  if c = '\n' then [c] :: rest
  else match rest with
    | [] => [[c]]
    | piece :: more => (c :: piece) :: more

/-- The lines of a text, each with its line feed. Only the last may lack one,
    and it is never empty. -/
def pieces (cs : List Char) : List (List Char) :=
  cs.foldr consPiece []

def joinLines (ls : List (List Char)) : List Char :=
  ['\n'].intercalate ls

theorem lines_cons (c : Char) (cs : List Char) : lines (c :: cs) = consLine c (lines cs) :=
  rfl

theorem pieces_cons (c : Char) (cs : List Char) : pieces (c :: cs) = consPiece c (pieces cs) :=
  rfl

/-- A text has at least one line. -/
theorem lines_ne_nil (cs : List Char) : lines cs ≠ [] := by
  cases cs with
  | nil => simp [lines]
  | cons c cs =>
    rw [lines_cons]
    unfold consLine
    split
    · simp
    · split <;> simp

/-- Cutting a text into lines and joining them gives it back. -/
theorem joinLines_lines (cs : List Char) : joinLines (lines cs) = cs := by
  induction cs with
  | nil => rfl
  | cons c cs ih =>
    rw [lines_cons]
    cases h : lines cs with
    | nil => exact absurd h (lines_ne_nil cs)
    | cons line more =>
      rw [h] at ih
      by_cases hc : c = '\n'
      · subst hc
        simpa [consLine, joinLines] using ih
      · cases more <;> simp_all [consLine, joinLines]

/-! ## Indentation -/

/-- A line one level deeper. A blank line stays as it is. -/
def indentLine (indent line : List Char) : List Char :=
  if allBlank line then line else indent ++ line

/-- Code one level deeper: the indentation unit stands before each line that is
    not blank (`prefix_lines`). -/
def indentLines (indent code : String) : String :=
  String.ofList ((pieces code.toList).flatMap (indentLine indent.toList))

/-! ## Normal form -/

/-- The normal form of a script: no blanks at the end of a line, no empty lines
    at either end, and one final line feed unless nothing is left
    (`normalize_whitespace`). -/
def tidy (code : String) : String :=
  match trimLineFeeds (joinLines ((lines code.toList).map trimEnd)) with
  | [] => ""
  | body => String.ofList (body ++ ['\n'])

end PollScript.Text
