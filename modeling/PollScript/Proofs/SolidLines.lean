import Mathlib.Data.List.DropRight
import PollScript.Generator
import PollScript.Proofs.Lines

/-!
# Solid lines

Layout is what empty lines and blanks at the ends of lines do to a text. The
solid lines are what is left of a text without its layout. Putting the sections
of a script together and giving it its normal form only touches the layout, so
the solid lines of a script are those of its sections, in their order.

Results:

* `solidLines_append_lineFeed`: a text goes on with its solid lines behind a line
  feed.
* `solidLines_tidy`: the normal form keeps the solid lines.
* `filter_lines_tidy`: in the normal form, every line that is not empty is solid.
* `solidLines_finalize`: a finished script has the solid lines of its sections.
-/

namespace PollScript

namespace Text

/-- The lines that are not blank, without the blanks at their ends. -/
def solidLines (cs : List Char) : List (List Char) :=
  ((lines cs).map trimEnd).filter (!·.isEmpty)

@[simp] theorem solidLines_nil : solidLines [] = [] :=
  rfl

theorem solidLines_of_not_mem {line : List Char} (h : '\n' ∉ line) :
    solidLines line = if trimEnd line = [] then [] else [trimEnd line] := by
  rw [solidLines, lines_of_not_mem h]
  by_cases hline : trimEnd line = []
  · simp [hline]
  · simp [hline]

/-- A text goes on with its lines behind a line feed. -/
theorem lines_append_lineFeed (front back : List Char) :
    lines (front ++ '\n' :: back) = lines front ++ lines back := by
  induction front using line_induction with
  | last line hline =>
    rw [lines_append_line hline, lines_of_not_mem hline]
    rfl
  | cons line rest hline ih =>
    rw [List.append_assoc, List.cons_append, lines_append_line hline, ih, lines_append_line hline,
      List.cons_append]

/-- So it does with its solid lines. -/
theorem solidLines_append_lineFeed (front back : List Char) :
    solidLines (front ++ '\n' :: back) = solidLines front ++ solidLines back := by
  unfold solidLines
  rw [lines_append_lineFeed, List.map_append, List.filter_append]

theorem solidLines_append_end (cs : List Char) : solidLines (cs ++ ['\n']) = solidLines cs := by
  rw [solidLines_append_lineFeed, solidLines_nil, List.append_nil]

theorem trimEnd_of_allBlank {cs : List Char} (h : allBlank cs = true) : trimEnd cs = [] := by
  have hdrop := trimEnd_append_blank [] cs h
  rw [List.nil_append] at hdrop
  rw [hdrop]
  rfl

/-- A blank text has no solid lines. -/
theorem solidLines_of_allBlank {cs : List Char} (h : allBlank cs = true) : solidLines cs = [] := by
  induction cs using line_induction with
  | last line hline =>
    rw [solidLines_of_not_mem hline, if_pos (trimEnd_of_allBlank h)]
  | cons line rest hline ih =>
    have hparts : allBlank line = true ∧ allBlank rest = true := by
      simp only [allBlank, List.all_append, List.all_cons, Bool.and_eq_true] at h ⊢
      exact ⟨h.1, h.2.2⟩
    rw [solidLines_append_lineFeed, ih hparts.2, solidLines_of_not_mem hline,
      if_pos (trimEnd_of_allBlank hparts.1)]
    rfl

/-! ## Line feeds at the ends -/

/-- What is left of a text without line feeds at its ends is between two runs of
    line feeds. -/
theorem exists_trimLineFeeds (cs : List Char) : ∃ before after : Nat,
    cs = List.replicate before '\n' ++ trimLineFeeds cs ++ List.replicate after '\n' := by
  have front : ∀ cs : List Char, ∃ n, cs = List.replicate n '\n' ++ cs.dropWhile (· == '\n') := by
    intro cs
    induction cs with
    | nil => exact ⟨0, rfl⟩
    | cons c cs ih =>
      by_cases hc : c = '\n'
      · subst hc
        obtain ⟨n, hn⟩ := ih
        exact ⟨n + 1, by rw [List.dropWhile_cons_of_pos (by rfl), List.replicate_succ,
          List.cons_append, ← hn]⟩
      · exact ⟨0, by rw [List.dropWhile_cons_of_neg (by simpa using hc)]; rfl⟩
  obtain ⟨before, hbefore⟩ := front cs
  obtain ⟨after, hafter⟩ := front (cs.dropWhile (· == '\n')).reverse
  refine ⟨before, after, ?_⟩
  have hback := congrArg List.reverse hafter
  rw [List.reverse_reverse, List.reverse_append, List.reverse_replicate] at hback
  rw [trimLineFeeds, stripWhile, dropEndWhile, List.append_assoc, ← hback]
  exact hbefore

theorem solidLines_replicate_append (n : Nat) (cs : List Char) :
    solidLines (List.replicate n '\n' ++ cs) = solidLines cs := by
  induction n with
  | zero => rfl
  | succ n ih =>
    rw [List.replicate_succ, List.cons_append]
    exact (solidLines_append_lineFeed [] _).trans ih

theorem solidLines_append_replicate (n : Nat) (cs : List Char) :
    solidLines (cs ++ List.replicate n '\n') = solidLines cs := by
  induction n with
  | zero => rw [List.replicate_zero, List.append_nil]
  | succ n ih =>
    rw [List.replicate_succ', ← List.append_assoc, solidLines_append_end, ih]

theorem solidLines_trimLineFeeds (cs : List Char) :
    solidLines (trimLineFeeds cs) = solidLines cs := by
  obtain ⟨before, after, h⟩ := exists_trimLineFeeds cs
  conv => rhs; rw [h]
  rw [solidLines_append_replicate, solidLines_replicate_append]

/-! ## Normal form -/

theorem not_mem_trimEnd {line : List Char} (h : '\n' ∉ line) : '\n' ∉ trimEnd line := by
  intro hmem
  rw [trimEnd, dropEndWhile, List.mem_reverse] at hmem
  exact h (List.mem_reverse.mp ((List.dropWhile_sublist _).mem hmem))

theorem trimEnd_trimEnd (line : List Char) : trimEnd (trimEnd line) = trimEnd line := by
  unfold trimEnd dropEndWhile
  rw [List.reverse_reverse, List.dropWhile_idempotent]

theorem solidLines_trimLines (cs : List Char) : solidLines (trimLines cs) = solidLines cs := by
  induction cs using line_induction with
  | last line hline =>
    rw [trimLines_of_not_mem hline, solidLines_of_not_mem (not_mem_trimEnd hline), trimEnd_trimEnd,
      solidLines_of_not_mem hline]
  | cons line rest hline ih =>
    rw [trimLines_append_line hline, solidLines_append_lineFeed, ih, solidLines_append_lineFeed,
      solidLines_of_not_mem (not_mem_trimEnd hline), trimEnd_trimEnd, solidLines_of_not_mem hline]

/-- The normal form keeps the solid lines. -/
theorem solidLines_tidy (code : String) :
    solidLines (tidy code).toList = solidLines code.toList := by
  have hbody : solidLines (trimLineFeeds (trimLines code.toList)) = solidLines code.toList := by
    rw [solidLines_trimLineFeeds, solidLines_trimLines]
  rw [toList_tidy]
  split
  · next h => rw [← hbody, h]
  · rw [solidLines_append_end, hbody]

/-- No line of the text ends in blanks. -/
def Trimmed (cs : List Char) : Prop :=
  ∀ line ∈ lines cs, trimEnd line = line

theorem lines_append_end (cs : List Char) : lines (cs ++ ['\n']) = lines cs ++ [[]] :=
  lines_append_lineFeed cs []

theorem trimmed_trimLines (cs : List Char) : Trimmed (trimLines cs) := by
  induction cs using line_induction with
  | last line hline =>
    intro other hother
    rw [trimLines_of_not_mem hline, lines_of_not_mem (not_mem_trimEnd hline),
      List.mem_singleton] at hother
    rw [hother, trimEnd_trimEnd]
  | cons line rest hline ih =>
    intro other hother
    rw [trimLines_append_line hline, lines_append_line (not_mem_trimEnd hline)] at hother
    rcases List.mem_cons.mp hother with rfl | hother
    · exact trimEnd_trimEnd line
    · exact ih other hother

theorem trimmed_append_end {cs : List Char} : Trimmed (cs ++ ['\n']) ↔ Trimmed cs := by
  unfold Trimmed
  rw [lines_append_end]
  constructor
  · exact fun h line hline => h line (List.mem_append_left _ hline)
  · intro h line hline
    rcases List.mem_append.mp hline with hline | hline
    · exact h line hline
    · rw [List.mem_singleton.mp hline]
      rfl

theorem trimmed_of_append_replicate {n : Nat} {cs : List Char}
    (h : Trimmed (cs ++ List.replicate n '\n')) : Trimmed cs := by
  induction n with
  | zero => rwa [List.replicate_zero, List.append_nil] at h
  | succ n ih =>
    rw [List.replicate_succ', ← List.append_assoc, trimmed_append_end] at h
    exact ih h

theorem trimmed_of_replicate_append {n : Nat} {cs : List Char}
    (h : Trimmed (List.replicate n '\n' ++ cs)) : Trimmed cs := by
  induction n with
  | zero => exact h
  | succ n ih =>
    rw [List.replicate_succ, List.cons_append] at h
    exact ih fun line hline => h line (List.mem_cons_of_mem _ hline)

theorem trimmed_tidy (code : String) : Trimmed (tidy code).toList := by
  obtain ⟨before, after, hsplit⟩ := exists_trimLineFeeds (trimLines code.toList)
  have hbody : Trimmed (trimLineFeeds (trimLines code.toList)) := by
    have htrimmed := trimmed_trimLines code.toList
    rw [hsplit] at htrimmed
    exact trimmed_of_replicate_append (trimmed_of_append_replicate htrimmed)
  rw [toList_tidy]
  split
  · next h => rwa [h] at hbody
  · exact trimmed_append_end.mpr hbody

/-- In the normal form, every line that is not empty is solid. -/
theorem filter_lines_tidy (code : String) {p : List Char → Bool} (empty : p [] = false) :
    (lines (tidy code).toList).filter p = (solidLines (tidy code).toList).filter p := by
  have hlines : (lines (tidy code).toList).map trimEnd = lines (tidy code).toList := by
    conv => rhs; rw [← List.map_id (lines (tidy code).toList)]
    exact List.map_congr_left (trimmed_tidy code)
  rw [solidLines, hlines, List.filter_filter]
  refine List.filter_congr fun line _ => ?_
  cases line with
  | nil => simp [empty]
  | cons c cs => simp

/-! ## Putting texts together -/

/-- Texts that are joined by line feeds keep their solid lines. -/
theorem solidLines_intercalate (n : Nat) (texts : List (List Char)) :
    solidLines ((List.replicate (n + 1) '\n').intercalate texts) = texts.flatMap solidLines := by
  induction texts with
  | nil => rfl
  | cons text rest ih =>
    cases rest with
    | nil => simp [List.intercalate]
    | cons other rest =>
      rw [List.intercalate_cons_cons, List.flatMap_cons, ← ih, List.replicate_succ,
        List.append_assoc, List.cons_append, solidLines_append_lineFeed,
        solidLines_replicate_append]

theorem flatMap_solidLines_filter (texts : List (List Char)) :
    (texts.filter (!allBlank ·)).flatMap solidLines = texts.flatMap solidLines := by
  induction texts with
  | nil => rfl
  | cons text rest ih =>
    cases hblank : allBlank text with
    | true => simp [hblank, ih, solidLines_of_allBlank hblank]
    | false => simp [hblank, ih]

end Text

open Script

/-- Joined sections have the solid lines of the sections. -/
theorem Script.Context.solidLines_joinSections (parts : List String) :
    Text.solidLines (joinSections parts).toList =
      parts.flatMap fun part => Text.solidLines part.toList := by
  rw [joinSections, String.toList_ofList]
  refine (Text.solidLines_intercalate 2 _).trans ?_
  rw [Text.flatMap_solidLines_filter, List.flatMap_map]
  simp only [Text.solidLines_trimLineFeeds]

/-- A finished script has the solid lines of its sections. -/
theorem Script.Context.solidLines_finalize (code : String) (c : Context) :
    Text.solidLines (c.finalize code).1.toList =
      (c.sections code).flatMap fun part => Text.solidLines part.toList := by
  rw [finalize_fst, Text.solidLines_tidy, solidLines_joinSections]

/-- The code of a pass has the solid lines of its pieces. -/
theorem Generator.solidLines_joinChunks (chunks : List String) :
    Text.solidLines (joinChunks chunks).toList =
      chunks.flatMap fun code => Text.solidLines code.toList := by
  rw [joinChunks, String.toList_intercalate]
  refine (Text.solidLines_intercalate 2 _).trans ?_
  have hfilter : (chunks.filter fun code => !Text.allBlank code.toList).map String.toList =
      (chunks.map String.toList).filter (!Text.allBlank ·) := by
    rw [List.filter_map]
    rfl
  rw [hfilter, Text.flatMap_solidLines_filter, List.flatMap_map]

end PollScript
