import PollScript.Text.Lines

/-!
# Texts line by line

A text is one line without a line feed, or such a line, a line feed and a
shorter text. Cutting into lines or pieces follows this shape, so what the
edits of a script do is shown by induction over lines.

Results:

* `line_induction`: what passes over a line holds of every text.
* `indentChars_append_line`: indentation goes line by line.
* `trimLines_append_line`: so does the removal of blanks at the ends of lines.
-/

namespace PollScript.Text

/-- What holds of every list without a separator, and passes from a list to the list
    with one more part in front, holds of every list. -/
theorem cut_induction {α : Type} [DecidableEq α] {sep : α} {P : List α → Prop}
    (last : ∀ part, sep ∉ part → P part)
    (cons : ∀ part rest, sep ∉ part → P rest → P (part ++ sep :: rest)) (xs : List α) : P xs := by
  -- the part before the list at hand is what was read since the last separator
  have go : ∀ xs part : List α, sep ∉ part → P (part ++ xs) := by
    intro xs
    induction xs with
    | nil => exact fun part hpart => by rw [List.append_nil]; exact last part hpart
    | cons x xs ih =>
      intro part hpart
      by_cases hx : x = sep
      · subst hx
        exact cons part xs hpart (ih [] List.not_mem_nil)
      · have hnew : sep ∉ part ++ [x] := by
          simp only [List.mem_append, List.mem_singleton, not_or]
          exact ⟨hpart, fun h => hx h.symm⟩
        have hP := ih (part ++ [x]) hnew
        rwa [List.append_assoc] at hP
  exact go xs [] List.not_mem_nil

/-- What holds of every single line, and passes from a text to the text with
    one more line in front, holds of every text. -/
theorem line_induction {P : List Char → Prop} (last : ∀ line, '\n' ∉ line → P line)
    (cons : ∀ line rest, '\n' ∉ line → P rest → P (line ++ '\n' :: rest)) (cs : List Char) :
    P cs :=
  cut_induction last cons cs

/-! ## Cutting -/

theorem consLine_of_ne {c : Char} (h : c ≠ '\n') (line : List Char) (more : List (List Char)) :
    consLine c (line :: more) = (c :: line) :: more :=
  if_neg h

theorem consPiece_of_ne {c : Char} (h : c ≠ '\n') (piece : List Char)
    (more : List (List Char)) : consPiece c (piece :: more) = (c :: piece) :: more :=
  if_neg h

theorem lines_of_not_mem {line : List Char} (h : '\n' ∉ line) : lines line = [line] := by
  induction line with
  | nil => rfl
  | cons c line ih =>
    rw [List.mem_cons, not_or] at h
    rw [lines_cons, ih h.2, consLine_of_ne (Ne.symm h.1)]

theorem lines_append_line {line : List Char} (h : '\n' ∉ line) (rest : List Char) :
    lines (line ++ '\n' :: rest) = line :: lines rest := by
  induction line with
  | nil => rfl
  | cons c line ih =>
    rw [List.mem_cons, not_or] at h
    rw [List.cons_append, lines_cons, ih h.2, consLine_of_ne (Ne.symm h.1)]

theorem pieces_of_not_mem {line : List Char} (h : '\n' ∉ line) (hne : line ≠ []) :
    pieces line = [line] := by
  induction line with
  | nil => exact absurd rfl hne
  | cons c line ih =>
    rw [List.mem_cons, not_or] at h
    cases line with
    | nil => exact if_neg (Ne.symm h.1)
    | cons d line =>
      rw [pieces_cons, ih h.2 (List.cons_ne_nil d line), consPiece_of_ne (Ne.symm h.1)]

theorem pieces_append_line {line : List Char} (h : '\n' ∉ line) (rest : List Char) :
    pieces (line ++ '\n' :: rest) = (line ++ ['\n']) :: pieces rest := by
  induction line with
  | nil => rfl
  | cons c line ih =>
    rw [List.mem_cons, not_or] at h
    rw [List.cons_append, pieces_cons, ih h.2, consPiece_of_ne (Ne.symm h.1)]
    rfl

/-! ## Edits -/

/-- The characters of code one level deeper. -/
def indentChars (indent code : List Char) : List Char :=
  (pieces code).flatMap (indentLine indent)

theorem toList_indentLines (indent code : String) :
    (indentLines indent code).toList = indentChars indent.toList code.toList :=
  String.toList_ofList

theorem indentChars_of_not_mem (indent : List Char) {line : List Char} (h : '\n' ∉ line) :
    indentChars indent line = if allBlank line then line else indent ++ line := by
  cases line with
  | nil => rfl
  | cons c line =>
    rw [indentChars, pieces_of_not_mem h (List.cons_ne_nil c line), List.flatMap_singleton,
      indentLine]

/-- A line feed at its end does not make a line less blank. -/
theorem allBlank_append_lineFeed (line : List Char) :
    allBlank (line ++ ['\n']) = allBlank line := by
  have hfeed : isBlank '\n' = true := by decide
  simp [allBlank, hfeed]

/-- Indentation goes line by line. -/
theorem indentChars_append_line (indent : List Char) {line : List Char} (h : '\n' ∉ line)
    (rest : List Char) :
    indentChars indent (line ++ '\n' :: rest) =
      indentChars indent line ++ '\n' :: indentChars indent rest := by
  rw [indentChars, pieces_append_line h, List.flatMap_cons, indentLine, allBlank_append_lineFeed,
    indentChars_of_not_mem indent h, indentChars]
  split <;> simp

/-- Code is indented by indenting its lines. -/
theorem indentChars_eq (indent code : List Char) :
    indentChars indent code = joinLines ((lines code).map (indentLine indent)) := by
  induction code using line_induction with
  | last line hline =>
    rw [indentChars_of_not_mem indent hline, lines_of_not_mem hline]
    simp [joinLines, indentLine]
  | cons line rest hline ih =>
    obtain ⟨first, more, hlines⟩ := List.exists_cons_of_ne_nil (lines_ne_nil rest)
    rw [indentChars_append_line indent hline, ih, indentChars_of_not_mem indent hline,
      lines_append_line hline, hlines, List.map_cons, List.map_cons, List.map_cons, joinLines,
      joinLines, List.intercalate_cons_cons, ← indentLine]
    simp

/-- What is indented behind a line feed is indented on its own. -/
theorem indentChars_append_lineFeed (indent front back : List Char) :
    indentChars indent (front ++ '\n' :: back) =
      indentChars indent front ++ '\n' :: indentChars indent back := by
  induction front using line_induction with
  | last line hline => exact indentChars_append_line indent hline back
  | cons line rest hline ih =>
    rw [List.append_assoc, List.cons_append, indentChars_append_line indent hline, ih,
      indentChars_append_line indent hline, List.append_assoc, List.cons_append]

/-- The lines of a text without the blanks at their ends. -/
def trimLines (cs : List Char) : List Char :=
  joinLines ((lines cs).map trimEnd)

theorem trimLines_of_not_mem {line : List Char} (h : '\n' ∉ line) :
    trimLines line = trimEnd line := by
  rw [trimLines, lines_of_not_mem h]
  simp [joinLines]

/-- So does the removal of blanks at the ends of lines. -/
theorem trimLines_append_line {line : List Char} (h : '\n' ∉ line) (rest : List Char) :
    trimLines (line ++ '\n' :: rest) = trimEnd line ++ '\n' :: trimLines rest := by
  rw [trimLines, lines_append_line h, List.map_cons, trimLines]
  obtain ⟨first, more, hlines⟩ := List.exists_cons_of_ne_nil (lines_ne_nil rest)
  rw [hlines, List.map_cons, joinLines, joinLines, List.intercalate_cons_cons]
  simp

theorem toList_tidy (code : String) :
    (tidy code).toList =
      if trimLineFeeds (trimLines code.toList) = [] then []
      else trimLineFeeds (trimLines code.toList) ++ ['\n'] := by
  unfold tidy trimLines
  split
  · next h => rw [if_pos h]; rfl
  · next h => rw [if_neg h, String.toList_ofList]

end PollScript.Text
