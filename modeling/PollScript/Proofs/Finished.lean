import PollScript.Proofs.Dictionaries
import PollScript.Proofs.SolidLines

/-!
# Finished scripts

A script is put together from texts that may begin and end with any mixture of line
feeds, carriage returns and other blanks. Each line that is not blank comes through, in
its place, and nothing else does. What comes out is in a form of its own, which finishing
it again does not change.

Results:

* `finished_tidy`: what is tidied is finished, or nothing is left of it.
* `Finished.exists_core`: a finished text is a core that tidying leaves alone, and a line feed.
* `solidLines_ingredients`: the sections of a script have the solid lines of the texts that
  they are made of.
* `finalize_finished`: a script has the solid lines of the texts that it is put together
  from, it is finished, and finishing it again changes nothing.
-/

namespace PollScript

/-- The line that runs the tasks together. -/
def gatherLine (indent : String) (names : List String) : String :=
  indent ++ "await asyncio.gather(" ++ ", ".intercalate (names.map (· ++ "()")) ++ ")"

namespace Text

/-! ## The form of a finished text -/

/-- A text in the form of a finished script. -/
structure Finished (cs : List Char) : Prop where
  first : ∃ line rest, lines cs = line :: rest ∧ allBlank line = false
  bare : ∀ line ∈ lines cs, ∀ c, line.getLast? = some c → isBlank c = false
  /-- The text ends in one line feed. -/
  ending : ∃ front c, cs = front ++ [c, '\n'] ∧ c ≠ '\n'

/-- A line that does not end in a blank has nothing to trim. -/
theorem trimEnd_eq_self_iff {line : List Char} :
    trimEnd line = line ↔ ∀ c, line.getLast? = some c → isBlank c = false := by
  show List.rdropWhile isBlank line = line ↔ _
  rw [List.rdropWhile_eq_self_iff]
  constructor
  · intro h c hc
    have hne : line ≠ [] := by rintro rfl; cases hc
    rw [List.getLast?_eq_some_getLast hne] at hc
    cases hc
    simpa using h hne
  · intro h hne
    simpa using h _ (List.getLast?_eq_some_getLast hne)

theorem trimmed_iff {cs : List Char} :
    Trimmed cs ↔ ∀ line ∈ lines cs, ∀ c, line.getLast? = some c → isBlank c = false :=
  forall₂_congr fun _ _ => trimEnd_eq_self_iff

/-- In a text without blanks at the ends of its lines there is nothing to trim. -/
theorem Trimmed.trimLines_eq {cs : List Char} (h : Trimmed cs) : trimLines cs = cs := by
  have hlines : (lines cs).map trimEnd = lines cs := by
    conv => rhs; rw [← List.map_id (lines cs)]
    exact List.map_congr_left h
  rw [trimLines, hlines, joinLines_lines]

/-! ## Line feeds at the ends -/

/-- A text that neither begins nor ends with a line feed keeps what it has. -/
theorem trimLineFeeds_eq_self {cs : List Char} (hhead : cs.head? ≠ some '\n')
    (hlast : cs.getLast? ≠ some '\n') : trimLineFeeds cs = cs := by
  have hfront : cs.dropWhile (· == '\n') = cs := by
    cases cs with
    | nil => rfl
    | cons c cs => exact List.dropWhile_cons_of_neg (by simpa using hhead)
  rw [trimLineFeeds, stripWhile, hfront]
  show List.rdropWhile _ cs = cs
  rw [List.rdropWhile_eq_self_iff]
  intro hne hfeed
  exact hlast (by rw [List.getLast?_eq_some_getLast hne, beq_iff_eq.mp hfeed])

/-- What is left without line feeds at the ends begins with none. -/
theorem head?_trimLineFeeds (cs : List Char) : (trimLineFeeds cs).head? ≠ some '\n' := by
  intro h
  obtain ⟨rest, hrest⟩ := List.head?_eq_some_iff.mp h
  have hprefix : trimLineFeeds cs <+: cs.dropWhile (· == '\n') := List.rdropWhile_prefix _ _
  rw [hrest] at hprefix
  obtain ⟨more, hmore⟩ := hprefix
  have hfirst := List.head?_dropWhile_not (· == '\n') cs
  rw [← hmore] at hfirst
  simp at hfirst

/-- Nor does it end with one. -/
theorem getLast?_trimLineFeeds (cs : List Char) : (trimLineFeeds cs).getLast? ≠ some '\n' := by
  intro h
  have hne : trimLineFeeds cs ≠ [] := by
    intro hnil
    rw [hnil] at h
    cases h
  have hlast : ¬((trimLineFeeds cs).getLast hne == '\n') = true :=
    List.rdropWhile_last_not (· == '\n') _ hne
  rw [List.getLast?_eq_some_getLast hne] at h
  exact hlast (beq_iff_eq.mpr (Option.some.inj h))

/-- A line feed more at the end goes as well. -/
theorem trimLineFeeds_append_end (cs : List Char) :
    trimLineFeeds (cs ++ ['\n']) = trimLineFeeds cs := by
  show List.rdropWhile _ ((cs ++ ['\n']).dropWhile _) = List.rdropWhile _ (cs.dropWhile _)
  rw [List.dropWhile_append]
  split
  · next hempty => rw [List.isEmpty_iff.mp hempty]; rfl
  · exact List.rdropWhile_concat_pos _ _ _ rfl

/-! ## Tidying -/

/-- A text that begins with no line feed begins with a solid line, if nothing is to be
    trimmed in it. -/
theorem Trimmed.exists_solid_line {cs : List Char} (h : Trimmed cs) (hne : cs ≠ [])
    (hhead : cs.head? ≠ some '\n') :
    ∃ line rest, lines cs = line :: rest ∧ allBlank line = false := by
  obtain ⟨line, rest, hlines⟩ := List.exists_cons_of_ne_nil (lines_ne_nil cs)
  refine ⟨line, rest, hlines, ?_⟩
  rw [Bool.eq_false_iff]
  intro hblank
  have hempty : line = [] := by
    rw [← h line (by rw [hlines]; exact List.mem_cons_self), trimEnd_of_allBlank hblank]
  -- an empty first line is there for the empty text and before a line feed only
  have hjoined := joinLines_lines cs
  rw [hlines, hempty] at hjoined
  cases rest with
  | nil => exact hne hjoined.symm
  | cons other rest =>
    apply hhead
    rw [← hjoined, joinLines, List.intercalate_cons_cons]
    rfl

/-- What is tidied is finished, or nothing is left of it. -/
theorem finished_tidy (code : String) : tidy code = "" ∨ Finished (tidy code).toList := by
  have htrimmed := trimmed_tidy code
  have hchars := toList_tidy code
  generalize hbody : trimLineFeeds (trimLines code.toList) = body at hchars
  by_cases hempty : body = []
  · rw [if_pos hempty] at hchars
    exact .inl (String.toList_inj.mp hchars)
  · rw [if_neg hempty] at hchars
    right
    rw [hchars] at htrimmed ⊢
    have hcore := trimmed_append_end.mp htrimmed
    have hhead : body.head? ≠ some '\n' := hbody ▸ head?_trimLineFeeds _
    have hlast : body.getLast? ≠ some '\n' := hbody ▸ getLast?_trimLineFeeds _
    refine ⟨?_, trimmed_iff.mp htrimmed, body.dropLast, body.getLast hempty, ?_, ?_⟩
    · obtain ⟨line, rest, hlines, hsolid⟩ := hcore.exists_solid_line hempty hhead
      exact ⟨line, rest ++ [[]], by rw [lines_append_end, hlines, List.cons_append], hsolid⟩
    · conv => lhs; rw [← List.dropLast_append_getLast hempty]
      rw [List.append_assoc]
      rfl
    · intro hfeed
      exact hlast (by rw [List.getLast?_eq_some_getLast hempty, hfeed])

/-- A line that is not blank is solid. -/
theorem solidLines_ne_nil {cs line : List Char} (hmem : line ∈ lines cs)
    (hsolid : allBlank line = false) : solidLines cs ≠ [] := by
  have hline : trimEnd line ≠ [] := by
    intro hnil
    have hblank : ∀ c ∈ line, isBlank c = true := List.rdropWhile_eq_nil_iff.mp hnil
    rw [allBlank, List.all_eq_true.mpr hblank] at hsolid
    cases hsolid
  refine List.ne_nil_of_mem (a := trimEnd line) ?_
  rw [solidLines, List.mem_filter]
  exact ⟨List.mem_map_of_mem hmem, by simpa using hline⟩

/-- A finished text has a solid line. -/
theorem Finished.solidLines_ne_nil {cs : List Char} (h : Finished cs) : solidLines cs ≠ [] := by
  obtain ⟨line, rest, hlines, hsolid⟩ := h.first
  exact Text.solidLines_ne_nil (hlines ▸ List.mem_cons_self) hsolid

/-- A finished text is a text with a solid line and a line feed, and the text neither
    begins nor ends with a line feed. -/
theorem Finished.exists_core {cs : List Char} (h : Finished cs) :
    ∃ core, cs = core ++ ['\n'] ∧ Trimmed core ∧ trimLineFeeds core = core ∧
      allBlank core = false := by
  obtain ⟨front, c, hcs, hc⟩ := h.ending
  have hsplit : cs = (front ++ [c]) ++ ['\n'] := by rw [hcs]; simp
  refine ⟨front ++ [c], hsplit, ?_, trimLineFeeds_eq_self ?_ (by simpa using hc), ?_⟩
  · exact trimmed_append_end.mp (hsplit ▸ trimmed_iff.mpr h.bare)
  · intro hhead
    obtain ⟨more, hmore⟩ := List.head?_eq_some_iff.mp hhead
    obtain ⟨line, rest, hlines, hsolid⟩ := h.first
    have hempty : lines cs = [] :: lines (more ++ ['\n']) := by
      rw [hsplit, hmore]
      exact lines_append_line List.not_mem_nil _
    rw [hempty] at hlines
    cases hlines
    cases hsolid
  · rw [Bool.eq_false_iff]
    intro hblank
    apply h.solidLines_ne_nil
    rw [hsplit, solidLines_append_end, solidLines_of_allBlank hblank]

end Text

namespace Script.Context

/-! ## Finalising -/

/-- The texts that launch tasks together. -/
def launchTexts (indent : String) (tasks : List String) : List String :=
  ["async def main():", gatherLine indent tasks, "if __name__ == \"__main__\":",
   indent ++ "try:", indent ++ indent ++ "asyncio.run(main())",
   indent ++ "except KeyboardInterrupt:", indent ++ indent ++ "pass"]

/-- The texts that a script is put together from, in their order. -/
def ingredients (c : Context) (code : String) : List String :=
  c.imports.map (·.2) ++
    (if c.tasks ≠ [] ∧ "asyncio" ∉ c.imports.map (·.1) then ["import asyncio"] else []) ++
    c.helpers.map (·.2) ++ [code] ++
    if c.tasks = [] then [] else launchTexts c.indent c.tasks

/-- A line has its own solid lines, and those behind it follow. -/
theorem solidLines_line (text rest : String) :
    Text.solidLines (text ++ "\n" ++ rest).toList =
      Text.solidLines text.toList ++ Text.solidLines rest.toList := by
  rw [String.toList_append, String.toList_append, List.append_assoc]
  exact Text.solidLines_append_lineFeed _ _

theorem solidLines_runner (indent : String) (tasks : List String) :
    Text.solidLines (runner indent tasks).toList =
      (launchTexts indent tasks).flatMap fun text => Text.solidLines text.toList := by
  have hrunner : runner indent tasks =
      "async def main():" ++ "\n" ++ (gatherLine indent tasks ++ "\n" ++ ("" ++ "\n" ++
        ("" ++ "\n" ++ ("if __name__ == \"__main__\":" ++ "\n" ++ (indent ++ "try:" ++ "\n" ++
          (indent ++ indent ++ "asyncio.run(main())" ++ "\n" ++
            (indent ++ "except KeyboardInterrupt:" ++ "\n" ++
              (indent ++ indent ++ "pass" ++ "\n" ++ "")))))))) := by
    have hmain : "async def main():\n" = "async def main():" ++ "\n" := rfl
    have hgather : ")\n" = ")" ++ "\n" := rfl
    have hgap : "\n\n" = "\n" ++ "\n" := rfl
    have hguard : "if __name__ == \"__main__\":\n" = "if __name__ == \"__main__\":" ++ "\n" := rfl
    have htry : "try:\n" = "try:" ++ "\n" := rfl
    have hrun : "asyncio.run(main())\n" = "asyncio.run(main())" ++ "\n" := rfl
    have hexcept : "except KeyboardInterrupt:\n" = "except KeyboardInterrupt:" ++ "\n" := rfl
    have hpass : "pass\n" = "pass" ++ "\n" := rfl
    unfold runner gatherLine
    rw [hmain, hgather, hgap, hguard, htry, hrun, hexcept, hpass]
    simp only [String.append_assoc, String.empty_append, String.append_empty, -String.reduceAppend]
  have hempty : Text.solidLines ("" : String).toList = [] := rfl
  rw [hrunner]
  simp only [solidLines_line, hempty, launchTexts, List.flatMap_cons, List.flatMap_nil,
    List.nil_append]

/-- The header has the solid lines of its import lines. -/
theorem solidLines_header_section (ls : List String) :
    ((if ls.isEmpty then [] else ["\n".intercalate ls]).flatMap
      fun part => Text.solidLines part.toList) =
      ls.flatMap fun line => Text.solidLines line.toList := by
  split
  · next hempty => rw [List.isEmpty_iff.mp hempty]
  · rw [List.flatMap_singleton, String.toList_intercalate]
    exact (Text.solidLines_intercalate 0 _).trans (List.flatMap_map _ _ _)

/-- Launching tasks needs an import line, unless its key was requested. -/
theorem headerLines_cases (c : Context) :
    c.headerLines = c.imports.map (·.2) ++
      if c.tasks ≠ [] ∧ "asyncio" ∉ c.imports.map (·.1) then ["import asyncio"] else [] := by
  have hrequested : "asyncio" ∈ c.imports.map (·.1) ↔
      Dictionary.has c.imports "asyncio" = true := Dictionary.has_iff.symm
  unfold headerLines request
  by_cases htasks : c.tasks = []
  · simp [htasks]
  · by_cases hknown : Dictionary.has c.imports "asyncio" = true
    · simp [htasks, hknown, hrequested.mpr hknown]
    · simp [htasks, hknown, mt hrequested.mp hknown]

/-- The sections of a script have the solid lines of the texts that they are made of. -/
theorem solidLines_ingredients (c : Context) (code : String) :
    ((c.sections code).flatMap fun part => Text.solidLines part.toList) =
      (c.ingredients code).flatMap fun text => Text.solidLines text.toList := by
  have hrunner : (if c.tasks.isEmpty then [] else [runner c.indent c.tasks]).flatMap
      (fun part => Text.solidLines part.toList) =
      (if c.tasks = [] then [] else launchTexts c.indent c.tasks).flatMap
        fun text => Text.solidLines text.toList := by
    by_cases htasks : c.tasks = []
    · simp [htasks]
    · simp [htasks, solidLines_runner]
  rw [sections, arrange, ingredients, List.flatMap_append, List.flatMap_append, List.flatMap_append,
    solidLines_header_section, headerLines_cases, hrunner]
  simp only [List.flatMap_append]

/-- Finishing a finished text again changes nothing. -/
theorem finalize_of_finished {code : String} (h : code = "" ∨ Text.Finished code.toList)
    (indent : String) (depth : Nat) :
    ((⟨indent, [], [], [], depth⟩ : Context).finalize code).1 = code := by
  have hsections : (⟨indent, [], [], [], depth⟩ : Context).sections code = [code] := rfl
  rw [finalize_fst, hsections]
  rcases h with rfl | h
  · rfl
  · obtain ⟨core, hcode, htrimmed, hcore, hsolid⟩ := h.exists_core
    have hfeeds : Text.trimLineFeeds code.toList = core := by
      rw [hcode, Text.trimLineFeeds_append_end, hcore]
    have hne : core ≠ [] := by
      rintro rfl
      cases hsolid
    have hjoined : joinSections [code] = String.ofList core := by
      simp [joinSections, hfeeds, hsolid]
    rw [hjoined, ← String.toList_inj, Text.toList_tidy, String.toList_ofList, htrimmed.trimLines_eq,
      hcore, if_neg hne, hcode]

/-- A script has the solid lines of the texts that it is put together from, in their order.
    It is empty if there are none, and else it is finished. Finishing it again changes
    nothing. -/
theorem finalize_finished (c : Context) (code : String) :
    Text.solidLines (c.finalize code).1.toList =
        (c.ingredients code).flatMap (fun text => Text.solidLines text.toList) ∧
      (((c.ingredients code).flatMap (fun text => Text.solidLines text.toList) = [] ∧
          (c.finalize code).1 = "") ∨
        ((c.ingredients code).flatMap (fun text => Text.solidLines text.toList) ≠ [] ∧
          Text.Finished (c.finalize code).1.toList)) ∧
      ∀ (indent : String) (depth : Nat),
        ((⟨indent, [], [], [], depth⟩ : Context).finalize (c.finalize code).1).1 =
          (c.finalize code).1 := by
  have hsolid : Text.solidLines (c.finalize code).1.toList =
      (c.ingredients code).flatMap fun text => Text.solidLines text.toList := by
    rw [solidLines_finalize, solidLines_ingredients]
  have hform : (c.finalize code).1 = "" ∨ Text.Finished (c.finalize code).1.toList := by
    rw [finalize_fst]
    exact Text.finished_tidy _
  refine ⟨hsolid, ?_, finalize_of_finished hform⟩
  rw [← hsolid]
  rcases hform with hempty | hfinished
  · left
    rw [hempty]
    exact ⟨rfl, rfl⟩
  · exact .inr ⟨hfinished.solidLines_ne_nil, hfinished⟩

/-- Blanks go at the end of a line, and stay at its beginning. -/
example : ((withIndent "  ").finalize "\r\n\n x \r\n\n").1 = " x\n" := by decide

end Script.Context

end PollScript
