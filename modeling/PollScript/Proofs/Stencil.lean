import PollScript.Proofs.Landmarks

/-!
# Stencils

A stencil is a text with holes. A hole is for a unit of indentation, or for a string
literal of which there are two versions. Filled in two ways, a stencil gives two texts
that differ in their indentation and in the contents of their literals only.

What is done to a text by its lines can be done to the stencil, since neither a blank nor
a line feed is ever hidden in a literal: the holes are filled afterwards with the same
outcome. So two texts stay versions of one stencil through all the edits of a script.

Results:

* `Filling.lines_chars`: a stencil is cut into lines like the text that it is filled to.
* `Filling.dropWhile_chars`, `Filling.dropEndWhile_chars`: so are its ends trimmed.
* `Stencil.exists_margin`: the units of a line stand in front of it.
-/

namespace PollScript

open Script

/-- A place in a text: a character, a unit of indentation, or a literal with its two
    versions, of which the second may stand for the first. -/
inductive Cell (Texts : String → String → Prop) where
  | char (c : Char)
  | unit
  | literal (first second : String) (h : Texts first second)
deriving DecidableEq

/-- A text with holes. -/
abbrev Stencil (Texts : String → String → Prop) := List (Cell Texts)

/-- A way to fill the holes of a stencil: with so many blanks for a unit, and with one of
    the versions of a literal. -/
structure Filling where
  width : Nat
  pos : 0 < width
  choose : String → String → String

/-! ## Layout -/

/-- Reads a character of a line. In its margin, units may follow, and behind a line feed
    a new line begins. Nothing comes of a blank in the margin, which must be part of a
    unit, and of a quote, which must be part of a literal. -/
def Text.layChar (margin : Bool) (c : Char) : Option Bool :=
  if c = '\n' then some true
  else if c = '"' ∨ (margin = true ∧ c = ' ') then none
  else some false

/-- Reads a text. -/
def Text.lay (margin : Bool) (cs : List Char) : Option Bool :=
  cs.foldlM layChar margin

namespace Cell

variable {Texts : String → String → Prop}

/-- Reads a cell of a line, and tells whether the line is still in its margin. -/
def lay (margin : Bool) : Cell Texts → Option Bool
  | .char c => Text.layChar margin c
  | .unit => if margin then some true else none
  | .literal .. => some false

/-- Whether a cell holds characters of the class `p` only, when literals do not. -/
def isOf (p : Char → Bool) : Cell Texts → Bool
  | .char c => p c
  | .unit => p ' '
  | .literal .. => false

end Cell

namespace Stencil

variable {Texts : String → String → Prop}

/-- Reads a stencil. -/
def lay (margin : Bool) (s : Stencil Texts) : Option Bool :=
  s.foldlM Cell.lay margin

/-- The stencil of a text without holes. -/
def ofChars (cs : List Char) : Stencil Texts :=
  cs.map .char

/-- The lines of a stencil. -/
def lines (s : Stencil Texts) : List (Stencil Texts) :=
  s.splitOn (.char '\n')

/-- The stencil with edited lines. -/
def mapLines (edit : Stencil Texts → Stencil Texts) (s : Stencil Texts) : Stencil Texts :=
  [Cell.char '\n'].intercalate (s.lines.map edit)

theorem lay_cons (margin : Bool) (cell : Cell Texts) (s : Stencil Texts) :
    lay margin (cell :: s) = (cell.lay margin).bind fun margin => lay margin s :=
  rfl

theorem lay_append (margin : Bool) (s t : Stencil Texts) :
    lay margin (s ++ t) = (lay margin s).bind fun margin => lay margin t := by
  simp only [lay, List.foldlM_append]
  rfl

theorem lay_ofChars (margin : Bool) (cs : List Char) :
    lay margin (ofChars cs : Stencil Texts) = Text.lay margin cs := by
  rw [lay, ofChars, List.foldlM_map]
  rfl

/-- What holds of every single line, and passes from a stencil to the stencil with one
    more line in front, holds of every stencil. -/
theorem line_induction {P : Stencil Texts → Prop}
    (last : ∀ line, .char '\n' ∉ line → P line)
    (cons : ∀ line rest, .char '\n' ∉ line → P rest → P (line ++ .char '\n' :: rest))
    (s : Stencil Texts) : P s :=
  Text.cut_induction last cons s

theorem lines_of_not_mem {line : Stencil Texts} (h : .char '\n' ∉ line) : lines line = [line] := by
  refine List.splitOnP_eq_singleton fun cell hcell => beq_false_of_ne ?_
  rintro rfl
  exact h hcell

theorem lines_append_line {line : Stencil Texts} (h : .char '\n' ∉ line) (rest : Stencil Texts) :
    lines (line ++ .char '\n' :: rest) = line :: lines rest := by
  have hline : ∀ cell ∈ line, (cell == .char '\n') = false := by
    intro cell hcell
    refine beq_false_of_ne ?_
    rintro rfl
    exact h hcell
  exact List.splitOnP_append_cons_of_forall_mem hline (.char '\n') (beq_self_eq_true _) rest

theorem lines_ne_nil (s : Stencil Texts) : lines s ≠ [] := by
  induction s using Stencil.line_induction with
  | last line hline => simp [lines_of_not_mem hline]
  | cons line rest hline ih => simp [lines_append_line hline]

theorem mapLines_of_not_mem {edit : Stencil Texts → Stencil Texts} {line : Stencil Texts}
    (h : .char '\n' ∉ line) : mapLines edit line = edit line := by
  rw [mapLines, lines_of_not_mem h]
  simp

theorem mapLines_append_line {edit : Stencil Texts → Stencil Texts} {line : Stencil Texts}
    (h : .char '\n' ∉ line) (rest : Stencil Texts) :
    mapLines edit (line ++ .char '\n' :: rest) = edit line ++ .char '\n' :: mapLines edit rest := by
  obtain ⟨first, more, hlines⟩ := List.exists_cons_of_ne_nil (lines_ne_nil rest)
  rw [mapLines, lines_append_line h, mapLines, hlines, List.map_cons, List.map_cons,
    List.intercalate_cons_cons]
  simp

/-- A stencil whose lines are edited can be read like before, as far as its lines can, and
    ends like before, as far as its last line does. -/
theorem exists_lay_mapLines {Ends : Bool → Bool → Prop} {edit : Stencil Texts → Stencil Texts}
    (hedit : ∀ line margin, .char '\n' ∉ line → lay true line = some margin →
      ∃ margin', lay true (edit line) = some margin' ∧ Ends margin margin')
    {s : Stencil Texts} {margin : Bool} (h : lay true s = some margin) :
    ∃ margin', lay true (mapLines edit s) = some margin' ∧ Ends margin margin' := by
  induction s using Stencil.line_induction with
  | last line hline =>
    rw [mapLines_of_not_mem hline]
    exact hedit line margin hline h
  | cons line rest hline ih =>
    rw [lay_append, Option.bind_eq_some_iff] at h
    obtain ⟨mid, hmid, hrest⟩ := h
    obtain ⟨mid', hmid', -⟩ := hedit line mid hline hmid
    obtain ⟨margin', hmargin', hends⟩ := ih hrest
    refine ⟨margin', ?_, hends⟩
    rw [mapLines_append_line hline, lay_append, hmid']
    exact hmargin'

/-- Each line of a stencil that can be read can be read on its own. -/
theorem exists_lay_of_mem_lines {s : Stencil Texts} {margin : Bool} (h : lay true s = some margin)
    {line : Stencil Texts} (hline : line ∈ s.lines) :
    .char '\n' ∉ line ∧ ∃ margin', lay true line = some margin' := by
  induction s using Stencil.line_induction with
  | last other hother =>
    rw [lines_of_not_mem hother, List.mem_singleton] at hline
    rw [hline]
    exact ⟨hother, margin, h⟩
  | cons other rest hother ih =>
    rw [lay_append, Option.bind_eq_some_iff] at h
    obtain ⟨mid, hmid, hrest⟩ := h
    rw [lines_append_line hother] at hline
    rcases List.mem_cons.mp hline with rfl | hline
    · exact ⟨hother, mid, hmid⟩
    · exact ih hrest hline

/-- A line that is not in its margin any more holds no unit. -/
theorem unit_not_mem {s : Stencil Texts} (hline : .char '\n' ∉ s) {margin : Bool}
    (h : lay false s = some margin) : .unit ∉ s := by
  induction s with
  | nil => exact List.not_mem_nil
  | cons cell s ih =>
    rw [List.mem_cons, not_or] at hline
    rw [lay_cons, Option.bind_eq_some_iff] at h
    obtain ⟨mid, hcell, hrest⟩ := h
    rw [List.mem_cons, not_or]
    cases cell with
    | unit => cases hcell
    | literal first second hsame =>
      cases hcell
      exact ⟨nofun, ih hline.2 hrest⟩
    | char c =>
      refine ⟨nofun, ih hline.2 ?_⟩
      have hc : c ≠ '\n' := fun heq => hline.1 (by rw [heq])
      simp only [Cell.lay, Text.layChar, if_neg hc] at hcell
      split at hcell
      · cases hcell
      · cases hcell
        exact hrest

/-- The units of a line stand in front of it, and no blank comes behind them. -/
theorem exists_margin {line : Stencil Texts} (hline : .char '\n' ∉ line) {margin : Bool}
    (h : lay true line = some margin) : ∃ (n : Nat) (rest : Stencil Texts),
      line = List.replicate n .unit ++ rest ∧ .unit ∉ rest ∧ rest.head? ≠ some (.char ' ') := by
  induction line with
  | nil => exact ⟨0, [], rfl, List.not_mem_nil, nofun⟩
  | cons cell line ih =>
    have hall := hline
    rw [List.mem_cons, not_or] at hline
    rw [lay_cons, Option.bind_eq_some_iff] at h
    obtain ⟨mid, hcell, hrest⟩ := h
    cases cell with
    | unit =>
      cases hcell
      obtain ⟨n, rest, rfl, hunit, hhead⟩ := ih hline.2 hrest
      exact ⟨n + 1, rest, rfl, hunit, hhead⟩
    | literal first second hsame =>
      cases hcell
      refine ⟨0, _, rfl, ?_, nofun⟩
      rw [List.mem_cons, not_or]
      exact ⟨nofun, unit_not_mem hline.2 hrest⟩
    | char c =>
      have hc : c ≠ '\n' := fun heq => hline.1 (by rw [heq])
      simp only [Cell.lay, Text.layChar, if_neg hc] at hcell
      split at hcell
      · cases hcell
      · next hother =>
        cases hcell
        refine ⟨0, _, rfl, ?_, fun heq => ?_⟩
        · rw [List.mem_cons, not_or]
          exact ⟨nofun, unit_not_mem hline.2 hrest⟩
        · cases heq
          exact hother (.inr ⟨trivial, rfl⟩)

end Stencil

/-! ## Filled stencils -/

namespace Filling

variable {Texts : String → String → Prop} (F : Filling) {p : Char → Bool}

/-- A unit of indentation. -/
def indent : List Char :=
  List.replicate F.width ' '

/-- The characters of a cell. -/
def cell : Cell Texts → List Char
  | .char c => [c]
  | .unit => F.indent
  | .literal first second _ => (quote (F.choose first second)).toList

/-- The characters of a stencil. -/
def chars (s : Stencil Texts) : List Char :=
  s.flatMap F.cell

theorem chars_cons (cell : Cell Texts) (s : Stencil Texts) :
    F.chars (cell :: s) = F.cell cell ++ F.chars s :=
  List.flatMap_cons

theorem chars_append (s t : Stencil Texts) : F.chars (s ++ t) = F.chars s ++ F.chars t :=
  List.flatMap_append

theorem chars_ofChars (cs : List Char) : F.chars (Stencil.ofChars cs : Stencil Texts) = cs := by
  rw [chars, Stencil.ofChars, List.flatMap_map]
  exact List.flatMap_singleton' cs

/-- A unit begins with a blank. -/
theorem exists_indent_eq : ∃ cs, F.indent = ' ' :: cs ∧ F.indent = cs ++ [' '] := by
  obtain ⟨n, hn⟩ := Nat.exists_eq_add_one_of_ne_zero F.pos.ne'
  rw [indent, hn]
  exact ⟨List.replicate n ' ', List.replicate_succ, List.replicate_succ'⟩

/-- A cell that holds characters of a class only has no others. -/
theorem of_isOf {cell : Cell Texts} (h : cell.isOf p = true) : ∀ c ∈ F.cell cell, p c = true := by
  cases cell with
  | char c => exact fun d hd => List.mem_singleton.mp hd ▸ h
  | unit => exact fun c hc => List.eq_of_mem_replicate hc ▸ h
  | literal first second hsame => cases h

/-- A cell that does not hold characters of a class only neither begins nor ends with
    one. -/
theorem exists_ends {cell : Cell Texts} (hp : p '"' = false) (h : cell.isOf p = false) :
    (∃ c cs, F.cell cell = c :: cs ∧ p c = false) ∧
      ∃ c cs, F.cell cell = cs ++ [c] ∧ p c = false := by
  cases cell with
  | char c => exact ⟨⟨c, [], rfl, h⟩, c, [], rfl, h⟩
  | unit =>
    obtain ⟨cs, hfront, hback⟩ := F.exists_indent_eq
    exact ⟨⟨' ', cs, hfront, h⟩, ' ', cs, hback, h⟩
  | literal first second hsame =>
    rw [Filling.cell, quote, String.toList_ofList]
    exact ⟨⟨'"', _, rfl, hp⟩, '"', _, rfl, hp⟩

/-- Whether a stencil holds characters of a class only does not depend on how it is
    filled. -/
theorem all_chars (hp : p '"' = false) (s : Stencil Texts) :
    (F.chars s).all p = s.all (Cell.isOf p) := by
  rw [chars, List.all_flatMap]
  congr 1
  funext cell
  cases h : cell.isOf p with
  | true => exact List.all_eq_true.mpr (F.of_isOf h)
  | false =>
    obtain ⟨⟨c, cs, heq, hc⟩, -⟩ := F.exists_ends hp h
    rw [heq, List.all_cons, hc, Bool.false_and]

/-- The front of a stencil is trimmed like that of the text. -/
theorem dropWhile_chars (hp : p '"' = false) (s : Stencil Texts) :
    (F.chars s).dropWhile p = F.chars (s.dropWhile (Cell.isOf p)) := by
  induction s with
  | nil => rfl
  | cons cell s ih =>
    rw [chars_cons]
    cases h : cell.isOf p with
    | true => rw [List.dropWhile_append_of_pos (F.of_isOf h), ih, List.dropWhile_cons_of_pos h]
    | false =>
      obtain ⟨⟨c, cs, heq, hc⟩, -⟩ := F.exists_ends hp h
      rw [List.dropWhile_cons_of_neg (by simp [h]), chars_cons, heq, List.cons_append,
        List.dropWhile_cons_of_neg (by simp [hc])]

/-- So is its end. -/
theorem dropEndWhile_chars (hp : p '"' = false) (s : Stencil Texts) :
    Text.dropEndWhile p (F.chars s) = F.chars (s.rdropWhile (Cell.isOf p)) := by
  show (F.chars s).rdropWhile p = _
  induction s using List.reverseRecOn with
  | nil => rfl
  | append_singleton s cell ih =>
    rw [chars_append, List.rdropWhile_concat, chars_cons, show F.chars [] = [] from rfl,
      List.append_nil]
    cases h : cell.isOf p with
    | true =>
      have hall : ∀ cs : List Char, (∀ c ∈ cs, p c = true) →
          (F.chars s ++ cs).rdropWhile p = (F.chars s).rdropWhile p := by
        intro cs hcs
        rw [List.rdropWhile, List.reverse_append, List.dropWhile_append_of_pos, List.rdropWhile]
        exact fun c hc => hcs c (List.mem_reverse.mp hc)
      rw [hall _ (F.of_isOf h), ih, if_pos rfl]
    | false =>
      obtain ⟨-, c, cs, heq, hc⟩ := F.exists_ends hp h
      rw [if_neg (by simp), chars_append, chars_cons, heq, ← List.append_assoc,
        List.rdropWhile_concat_neg _ _ _ (by simp [hc])]
      simp [chars]

/-- A line of a stencil has no line feed, however it is filled. -/
theorem not_mem_chars {line : Stencil Texts} (h : .char '\n' ∉ line) : '\n' ∉ F.chars line := by
  intro hmem
  obtain ⟨cell, hcell, hfeed⟩ := List.mem_flatMap.mp hmem
  cases cell with
  | char c => exact h (List.mem_singleton.mp hfeed ▸ hcell)
  | unit => exact absurd (List.eq_of_mem_replicate hfeed) (by decide)
  | literal first second hsame => exact not_mem_quote _ hfeed

theorem chars_append_line (line rest : Stencil Texts) :
    F.chars (line ++ .char '\n' :: rest) = F.chars line ++ '\n' :: F.chars rest := by
  rw [chars_append, chars_cons]
  rfl

/-- A stencil is cut into lines like the text that it is filled to. -/
theorem lines_chars (s : Stencil Texts) : Text.lines (F.chars s) = s.lines.map F.chars := by
  induction s using Stencil.line_induction with
  | last line hline =>
    rw [Stencil.lines_of_not_mem hline, Text.lines_of_not_mem (F.not_mem_chars hline)]
    rfl
  | cons line rest hline ih =>
    rw [Stencil.lines_append_line hline, chars_append_line,
      Text.lines_append_line (F.not_mem_chars hline), ih]
    rfl

/-- A stencil with edited lines gives the text with edited lines. -/
theorem chars_mapLines {edit : Stencil Texts → Stencil Texts} {editText : List Char → List Char}
    (hedit : ∀ line, F.chars (edit line) = editText (F.chars line)) (s : Stencil Texts) :
    F.chars (s.mapLines edit) = Text.joinLines ((Text.lines (F.chars s)).map editText) := by
  have hjoin : ∀ parts : List (Stencil Texts),
      F.chars ([Cell.char '\n'].intercalate parts) = Text.joinLines (parts.map F.chars) := by
    intro parts
    induction parts with
    | nil => rfl
    | cons part parts ih =>
      cases parts with
      | nil => simp [Text.joinLines]
      | cons other parts =>
        rw [Text.joinLines] at ih ⊢
        rw [List.intercalate_cons_cons, chars_append, ih, List.map_cons, List.map_cons,
          List.map_cons, List.intercalate_cons_cons, chars_append]
        rfl
  rw [Stencil.mapLines, hjoin, lines_chars, List.map_map, List.map_map]
  congr 1
  exact List.map_congr_left fun line _ => hedit line

end Filling

end PollScript
