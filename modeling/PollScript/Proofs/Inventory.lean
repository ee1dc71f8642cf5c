import Mathlib.Data.List.Nodup
import PollScript.Proofs.Outline
import PollScript.Proofs.Walk

/-!
# What a script contains

From the outline of a script follows which lines of a kind it has, wherever they
stand. Its imports and helper definitions are those that the live blocks need, and
they stand at the top. Its task functions are those of the enabled tasks, and the
part that launches them is there once, at the end, or not at all.

Results:

* `filter_generate`: the lines of a kind come from the header or from the tasks.
* `header_generate`: a script imports and defines what its live blocks need.
* `tasks_generate`: each task is defined once and launched once.
-/

namespace PollScript

open Script

/-! ## Kinds of lines -/

/-- Whether a line begins a helper function or the setup of the log, however deep it
    is. -/
def isHelper (line : List Char) : Bool :=
  Landmark.function.marks line || Landmark.logSetup.marks line

/-- The landmarks of the helper definitions. -/
def everyHelperMark : List (List Char) :=
  ["def evaluate_alarm(val, lv1, lv2, lv3):".toList, "logging.basicConfig(".toList]

/-- The landmarks that a header can have. -/
def everyHeaderMark : List (List Char) :=
  everyImport.map (·.2.toList) ++ everyHelperMark

/-- The landmarks of tasks and of what launches them. -/
def taskLandmarks : List Landmark :=
  [.asyncFunction, .gather, .guard]

theorem mem_landmarks_of_task : ∀ mark ∈ taskLandmarks, mark ∈ landmarks := by
  decide

theorem isLandmark_of_isHelper {line : List Char} (h : isHelper line = true) :
    isLandmark line = true := by
  rcases Bool.or_eq_true_iff.mp h with h | h
  · exact isLandmark_of_marks (by decide) h
  · exact isLandmark_of_marks (by decide) h

/-- A line with a landmark has no other. -/
theorem Landmark.marks_eq {mark own : Landmark} (hmark : mark ∈ landmarks) (hown : own ∈ landmarks)
    {line : List Char} (h : own.marks line = true) : mark.marks line = decide (mark = own) := by
  by_cases heq : mark = own
  · rw [heq, h, decide_eq_true rfl]
  · rw [(Landmark.not_marks hown hmark (Ne.symm heq) h).2, decide_eq_false heq]

/-- What stands out by a task is no part of a header. -/
theorem not_header_of_marks {own : Landmark} (hown : own ∈ taskLandmarks) {line : List Char}
    (h : own.marks line = true) : isImport line = false ∧ isHelper line = false := by
  have hmarks : ∀ mark ∈ landmarks, mark.marks line = decide (mark = own) :=
    fun mark hmark => Landmark.marks_eq hmark (mem_landmarks_of_task own hown) h
  have hothers : ∀ own ∈ taskLandmarks,
      decide (Landmark.moduleImport = own) = false ∧ decide (Landmark.nameImport = own) = false ∧
        decide (Landmark.function = own) = false ∧ decide (Landmark.logSetup = own) = false := by
    decide
  obtain ⟨hmodule, hname, hfunction, hlog⟩ := hothers own hown
  constructor
  · rw [isImport, hmarks _ (by decide), hmarks _ (by decide), hmodule, hname, Bool.or_false]
  · rw [isHelper, hmarks _ (by decide), hmarks _ (by decide), hfunction, hlog, Bool.or_false]

theorem marks_definitionLine (name : String) :
    Landmark.asyncFunction.marks (definitionLine name) = true :=
  Landmark.marks_of_begins (by decide) (begins_definitionLine name)

theorem definitionLine_injective {m n : String} (h : definitionLine m = definitionLine n) :
    m = n := by
  simp only [definitionLine, String.toList_append] at h
  exact String.toList_inj.mp (List.append_cancel_left (List.append_cancel_right h))

theorem marks_gatherLine {indent : String} (hblank : Text.allBlank indent.toList = true)
    (names : List String) : Landmark.gather.marks (gatherLine indent names).toList = true := by
  have hmarks : ∀ rest, Landmark.gather.marks (indent.toList ++ (Landmark.gather.chars ++ rest)) =
      true := by
    intro rest
    rw [Landmark.marks, Text.dedent_indent hblank]
    exact Landmark.marks_of_begins (by decide)
      (List.isPrefixOf_iff_prefix.mpr (List.prefix_append _ _))
  simp only [gatherLine, String.toList_append, List.append_assoc]
  exact hmarks _

/-- The lines of tasks with a given landmark. -/
theorem filter_taskMarks {indent : String} (hblank : Text.allBlank indent.toList = true)
    (names : List String) {mark : Landmark} (hmark : mark ∈ landmarks) :
    (names.map definitionLine ++ launchMarks indent names).filter mark.marks =
      (if mark = .asyncFunction then names.map definitionLine else []) ++
        if names.isEmpty then []
        else (if mark = .asyncFunction then [mainLine] else []) ++
          (if mark = .gather then [(gatherLine indent names).toList] else []) ++
          (if mark = .guard then [guardLine] else []) := by
  have hdefinition : ∀ line ∈ names.map definitionLine,
      mark.marks line = decide (mark = .asyncFunction) := by
    intro line hline
    obtain ⟨name, -, rfl⟩ := List.mem_map.mp hline
    exact Landmark.marks_eq hmark (by decide) (marks_definitionLine name)
  have hmain : mark.marks mainLine = decide (mark = .asyncFunction) :=
    Landmark.marks_eq hmark (by decide) (by decide)
  have hgather : mark.marks (gatherLine indent names).toList = decide (mark = .gather) :=
    Landmark.marks_eq hmark (by decide) (marks_gatherLine hblank names)
  have hguard : mark.marks guardLine = decide (mark = .guard) :=
    Landmark.marks_eq hmark (by decide) (by decide)
  have hnames : (names.map definitionLine).filter mark.marks =
      if mark = .asyncFunction then names.map definitionLine else [] := by
    rw [List.filter_congr hdefinition]
    by_cases heq : mark = .asyncFunction
    · simp [heq]
    · simp [heq]
  have hlaunch : (launchMarks indent names).filter mark.marks =
      if names.isEmpty then []
      else (if mark = .asyncFunction then [mainLine] else []) ++
        (if mark = .gather then [(gatherLine indent names).toList] else []) ++
        (if mark = .guard then [guardLine] else []) := by
    unfold launchMarks
    by_cases hempty : names.isEmpty = true
    · rw [if_pos hempty, if_pos hempty, List.filter_nil]
    · rw [if_neg hempty, if_neg hempty, List.filter_cons, List.filter_cons, List.filter_cons,
        hmain, hgather, hguard, List.filter_nil]
      simp only [decide_eq_true_eq]
      split <;> split <;> split <;> simp
  rw [List.filter_append, hnames, hlaunch]

namespace Generator

variable {g : Generator} {w : Workspace} {script : String} {width : Nat}

/-- The landmarks of the header of a script. -/
def headerMarks (g : Generator) (w : Workspace) : List (List Char) :=
  (g.registry.importLines w).map String.toList ++
    (g.registry.helperTexts g.indent w).flatMap landmarksIn

/-- The landmarks of the tasks of a script. -/
def taskMarks (g : Generator) (w : Workspace) : List (List Char) :=
  w.taskNames.map definitionLine ++ launchMarks g.indent w.taskNames

theorem mem_everyHelperMark (built : (Builder.default.indentWidth width).build = .ok g)
    {line : List Char} (h : line ∈ (g.registry.helperTexts g.indent w).flatMap landmarksIn) :
    line ∈ everyHelperMark := by
  obtain ⟨hblank, hline⟩ := indent_of_build built
  obtain ⟨text, htext, hmem⟩ := List.mem_flatMap.mp h
  rcases mem_helperTexts htext with rfl | rfl
  · rw [landmarksIn_helperDefinition hblank hline, List.mem_singleton] at hmem
    rw [hmem]
    exact List.mem_cons_self
  · rw [landmarksIn_loggingSetup hblank hline] at hmem
    exact List.mem_cons_of_mem _ hmem

theorem mem_everyHeaderMark (built : (Builder.default.indentWidth width).build = .ok g)
    {line : List Char} (h : line ∈ g.headerMarks w) : line ∈ everyHeaderMark := by
  rcases List.mem_append.mp h with h | h
  · obtain ⟨text, htext, rfl⟩ := List.mem_map.mp h
    obtain ⟨entry, hentry, rfl⟩ := mem_importLines htext
    exact List.mem_append_left _ (List.mem_map.mpr ⟨entry, hentry, rfl⟩)
  · exact List.mem_append_right _ (mem_everyHelperMark built h)

/-- Behind the header of a script nothing stands out like it. -/
theorem not_header_of_mem_taskMarks (built : (Builder.default.indentWidth width).build = .ok g)
    {line : List Char} (h : line ∈ g.taskMarks w) :
    isImport line = false ∧ isHelper line = false := by
  rcases List.mem_append.mp h with h | h
  · obtain ⟨name, -, rfl⟩ := List.mem_map.mp h
    exact not_header_of_marks (by decide) (marks_definitionLine name)
  · unfold launchMarks at h
    split at h
    · cases h
    · simp only [List.mem_cons, List.not_mem_nil, or_false] at h
      rcases h with rfl | rfl | rfl
      · decide
      · exact not_header_of_marks (by decide) (marks_gatherLine (indent_of_build built).1 _)
      · decide

/-- The lines of a kind come from the header or from the tasks. -/
theorem filter_generate (built : (Builder.default.indentWidth width).build = .ok g)
    (h : g.generate w = .ok script) {p : List Char → Bool}
    (hp : ∀ line, p line = true → isLandmark line = true) :
    (Text.lines script.toList).filter p =
      (g.headerMarks w).filter p ++ (g.taskMarks w).filter p := by
  rw [filter_lines_generate h hp, landmarksIn_generate built h, List.append_assoc,
    List.filter_append, headerMarks, taskMarks]

/-- The lines of a script that stand out by a task. -/
theorem filter_marks_generate (built : (Builder.default.indentWidth width).build = .ok g)
    (h : g.generate w = .ok script) (mark : Landmark) (hmark : mark ∈ taskLandmarks) :
    (Text.lines script.toList).filter mark.marks =
      (if mark = .asyncFunction then w.taskNames.map definitionLine else []) ++
        if w.taskNames.isEmpty then []
        else (if mark = .asyncFunction then [mainLine] else []) ++
          (if mark = .gather then [(gatherLine g.indent w.taskNames).toList] else []) ++
          (if mark = .guard then [guardLine] else []) := by
  have hmem := mem_landmarks_of_task mark hmark
  have hheader : (g.headerMarks w).filter mark.marks = [] := by
    rw [List.filter_eq_nil_iff]
    intro line hline
    have hevery : ∀ mark ∈ taskLandmarks, ∀ line ∈ everyHeaderMark, ¬mark.marks line = true := by
      decide
    exact hevery mark hmark line (mem_everyHeaderMark built hline)
  rw [filter_generate built h fun line => isLandmark_of_marks hmem, hheader, List.nil_append,
    taskMarks, filter_taskMarks (indent_of_build built).1 _ hmem]

/-! ## The header -/

/-- The imports of a script are those of its header. -/
theorem filter_isImport_generate (built : (Builder.default.indentWidth width).build = .ok g)
    (h : g.generate w = .ok script) :
    (Text.lines script.toList).filter isImport =
      (g.registry.importLines w).map String.toList := by
  have himports : ((g.registry.importLines w).map String.toList).filter isImport =
      (g.registry.importLines w).map String.toList := by
    rw [List.filter_eq_self]
    intro line hmem
    exact isImport_of_mem hmem
  have hhelpers : ((g.registry.helperTexts g.indent w).flatMap landmarksIn).filter isImport =
      [] := by
    rw [List.filter_eq_nil_iff]
    intro line hmem
    have hevery : ∀ line ∈ everyHelperMark, ¬isImport line = true := by decide
    exact hevery line (mem_everyHelperMark built hmem)
  have htasks : (g.taskMarks w).filter isImport = [] := by
    rw [List.filter_eq_nil_iff]
    intro line hmem
    rw [(not_header_of_mem_taskMarks built hmem).1]
    decide
  rw [filter_generate built h fun _ => isLandmark_of_isImport, htasks, List.append_nil,
    headerMarks, List.filter_append, himports, hhelpers, List.append_nil]

/-- A script begins with the imports and the helper definitions that its live blocks
    need, and nothing behind them is one. -/
theorem exists_header (built : (Builder.default.indentWidth width).build = .ok g)
    (h : g.generate w = .ok script) :
    ∃ rest, Text.solidLines script.toList =
        (g.registry.importLines w).map String.toList ++
          ((g.registry.helperTexts g.indent w).flatMap fun text =>
            Text.solidLines text.toList) ++ rest ∧
      ∀ line ∈ rest, isImport line = false ∧ isHelper line = false := by
  obtain ⟨hblank, hline⟩ := indent_of_build built
  obtain ⟨code, hsolid, hcode⟩ := exists_outline built h
  have hmarks : (code ++ launch g.indent w.taskNames).filter isLandmark = g.taskMarks w := by
    rw [List.filter_append, hcode, filter_launch hblank hline (not_mem_taskNames w), taskMarks]
  refine ⟨code ++ launch g.indent w.taskNames, ?_, ?_⟩
  · rw [hsolid, List.append_assoc]
  · intro line hmem
    by_cases hmark : isLandmark line = true
    · refine not_header_of_mem_taskMarks (g := g) (w := w) built ?_
      rw [← hmarks]
      exact List.mem_filter.mpr ⟨hmem, hmark⟩
    · exact ⟨Bool.eq_false_iff.mpr fun himport => hmark (isLandmark_of_isImport himport),
        Bool.eq_false_iff.mpr fun hhelper => hmark (isLandmark_of_isHelper hhelper)⟩

theorem nodup_eraseDups (texts : List String) : texts.eraseDups.Nodup := by
  induction texts using List.reverseRecOn with
  | nil => simp
  | append_singleton front text ih =>
    rw [List.eraseDups_append, List.nodup_append]
    refine ⟨ih, ?_, ?_⟩
    · by_cases hmem : text ∈ front
      · simp [List.removeAll, hmem]
      · simp [List.removeAll, hmem, List.eraseDups_cons]
    · intro a ha b hb heq
      rw [List.mem_eraseDups] at ha hb
      have hnew : b ∉ front := by
        simpa using (List.mem_filter.mp hb).2
      exact hnew (heq ▸ ha)

/-- The import that launching the tasks needs is there once if there are tasks. -/
theorem count_asyncio (built : (Builder.default.indentWidth width).build = .ok g)
    (h : g.generate w = .ok script) (htasks : w.taskNames ≠ []) :
    (Text.lines script.toList).count "import asyncio".toList = 1 := by
  obtain ⟨b, hb, hneeded⟩ := exists_needs_asyncio built htasks
  have hmem : "import asyncio" ∈ g.registry.importLines w := by
    rw [Registry.importLines, List.mem_eraseDups, List.mem_flatMap]
    exact ⟨b, hb, List.mem_map.mpr ⟨_, hneeded, rfl⟩⟩
  have hnodup : ((g.registry.importLines w).map String.toList).Nodup :=
    (nodup_eraseDups _).map fun _ _ => String.toList_inj.mp
  have himport : isImport "import asyncio".toList = true := by decide
  rw [← List.count_filter himport, filter_isImport_generate built h]
  exact List.count_eq_one_of_mem hnodup (List.mem_map.mpr ⟨_, hmem, rfl⟩)

/-- Over the default catalog, the imports of a script are the lines that its live
    blocks need, each once and in the order of their first need, and behind them come
    the helper definitions in the same way. What is not live adds nothing to them. A
    script that launches tasks has the import for that once. -/
theorem header_generate (built : (Builder.default.indentWidth width).build = .ok g)
    (h : g.generate w = .ok script) :
    (Text.lines script.toList).filter isImport = (g.registry.importLines w).map String.toList ∧
      (g.registry.importLines w).Nodup ∧ (g.registry.helperTexts g.indent w).Nodup ∧
      (∃ rest, Text.solidLines script.toList =
          (g.registry.importLines w).map String.toList ++
            ((g.registry.helperTexts g.indent w).flatMap fun text =>
              Text.solidLines text.toList) ++ rest ∧
        ∀ line ∈ rest, isImport line = false ∧ isHelper line = false) ∧
      (mainLine ∈ Text.lines script.toList →
        (Text.lines script.toList).count "import asyncio".toList = 1) := by
  refine ⟨filter_isImport_generate built h, nodup_eraseDups _, nodup_eraseDups _,
    exists_header built h, ?_⟩
  intro hmain
  refine count_asyncio built h fun hnone => ?_
  have hfilter := filter_marks_generate built h .asyncFunction (by decide)
  rw [hnone] at hfilter
  have hmark : Landmark.asyncFunction.marks mainLine = true := by decide
  have hmem := List.mem_filter.mpr ⟨hmain, hmark⟩
  rw [hfilter] at hmem
  cases hmem

/-- What a task logs is imported once and set up once, behind what the task itself
    needs, and the poll behind a disabled block is not imported. -/
theorem header_of_logging_task :
    ∃ script, Generator.generate
        ⟨⟨Catalog.default⟩, Emitters.default, (Builder.default.indentWidth 4).indent⟩
        ⟨[⟨"b1", "modbus_task_definition", true, [],
          [("DO", ⟨"b2", "modbus_log", true, [], [], some ⟨"b3", "modbus_log", false, [],
            [("MSG", ⟨"b4", "modbus_pull_data", true, [], [], none⟩)],
            some ⟨"b5", "modbus_log", true, [], [], none⟩⟩⟩)], none⟩]⟩ = .ok script ∧
      (Text.lines script.toList).filter isImport =
        ["import asyncio", "from poll import set_interval_frequency", "import logging"].map
          String.toList := by
  obtain ⟨script, hscript⟩ := verdict_eq_ok_iff.mp ((verdict_generate
    (Builder.standard_of_build rfl rfl (Builder.build_default 4)).1
    ⟨[⟨"b1", "modbus_task_definition", true, [],
      [("DO", ⟨"b2", "modbus_log", true, [], [], some ⟨"b3", "modbus_log", false, [],
        [("MSG", ⟨"b4", "modbus_pull_data", true, [], [], none⟩)],
        some ⟨"b5", "modbus_log", true, [], [], none⟩⟩⟩)], none⟩]⟩).trans rfl)
  exact ⟨script, hscript, (header_generate (Builder.build_default 4) hscript).1.trans rfl⟩

/-! ## The tasks -/

/-- Each name of a task is made from the id of its block. -/
theorem derived_taskNames (w : Workspace) :
    List.Forall₂
      (fun b name => TaskName.Derived b.taskId name ∧
        ∃ middle : String, name = "task_" ++ middle ++ "_loop" ∧
          ∀ c ∈ middle.toList, isNameChar c = true)
      (w.blocks.filter Block.isTask) w.taskNames := by
  have hderived := TaskName.assign_derived [] w.taskIds
  rw [Workspace.taskIds, List.forall₂_map_left_iff] at hderived
  exact hderived.imp fun b name h => ⟨h, h.exists_middle (nameFragment_isNameChar _)⟩

theorem nodup_taskNames (w : Workspace) : w.taskNames.Nodup :=
  (TaskName.assign_nodup [] w.taskIds).2

/-- No two of the functions that run as tasks begin with the same line, and none
    begins like the one that launches them. -/
theorem nodup_definitionLines (w : Workspace) :
    (w.taskNames.map definitionLine ++
      (if w.taskNames.isEmpty then [] else [mainLine])).Nodup := by
  have hmain : ∀ name ∈ w.taskNames, definitionLine name ≠ mainLine := by
    intro name hname heq
    obtain rfl : name = "main" := definitionLine_injective heq
    obtain ⟨b, hderived, hid⟩ := exists_of_mem_taskNames hname
    obtain ⟨middle, hmiddle, -⟩ := hderived.exists_middle hid
    have hchars := congrArg (fun text : String => text.toList.head?) hmiddle
    simp at hchars
  rw [List.nodup_append]
  refine ⟨(nodup_taskNames w).map fun _ _ => definitionLine_injective, ?_, ?_⟩
  · split <;> simp
  · intro line hline other hother
    obtain ⟨name, hname, rfl⟩ := List.mem_map.mp hline
    split at hother
    · cases hother
    · rw [List.mem_singleton.mp hother]
      exact hmain name hname

/-- Over the default catalog, a script has one task for each enabled task among the
    top-level blocks, in their order, each under a name of its own that is made from
    the task's id. Its function is defined once. The part that launches all of them
    ends the script, and a script without tasks has no line of it. -/
theorem tasks_generate (built : (Builder.default.indentWidth width).build = .ok g)
    (h : g.generate w = .ok script) :
    List.Forall₂
        (fun b name => TaskName.Derived b.taskId name ∧
          ∃ middle : String, name = "task_" ++ middle ++ "_loop" ∧
            ∀ c ∈ middle.toList, isNameChar c = true)
        (w.blocks.filter Block.isTask) w.taskNames ∧
      w.taskNames.Nodup ∧
      (∀ name ∈ w.taskNames, (Text.lines script.toList).count (definitionLine name) = 1) ∧
      (Text.lines script.toList).filter Landmark.asyncFunction.marks =
        w.taskNames.map definitionLine ++ (if w.taskNames.isEmpty then [] else [mainLine]) ∧
      (Text.lines script.toList).filter Landmark.gather.marks =
        (if w.taskNames.isEmpty then [] else [(gatherLine g.indent w.taskNames).toList]) ∧
      (Text.lines script.toList).filter Landmark.guard.marks =
        (if w.taskNames.isEmpty then [] else [guardLine]) ∧
      ∃ front, Text.solidLines script.toList = front ++ launch g.indent w.taskNames := by
  have hfunctions := filter_marks_generate built h .asyncFunction (by decide)
  have hgather := filter_marks_generate built h .gather (by decide)
  have hguard := filter_marks_generate built h .guard (by decide)
  obtain ⟨code, hsolid, -⟩ := exists_outline built h
  refine ⟨derived_taskNames w, nodup_taskNames w, ?_, hfunctions, hgather, hguard, _, hsolid⟩
  intro name hname
  rw [← List.count_filter (marks_definitionLine name), hfunctions]
  exact List.count_eq_one_of_mem (nodup_definitionLines w)
    (List.mem_append_left _ (List.mem_map.mpr ⟨name, hname, rfl⟩))

/-- An id that looks like the numbered name of another task gets a number as well. -/
theorem tasks_with_numbered_id :
    ∃ script, Generator.generate
        ⟨⟨Catalog.default⟩, Emitters.default, (Builder.default.indentWidth 4).indent⟩
        ⟨[⟨"b1", "modbus_task_definition", true, [("TASK_ID", .text "01")], [], none⟩,
          ⟨"b2", "modbus_task_definition", true, [("TASK_ID", .text "01")], [], none⟩,
          ⟨"b3", "modbus_task_definition", true, [("TASK_ID", .text "01_2")], [], none⟩]⟩ =
        .ok script ∧
      (Text.lines script.toList).filter Landmark.asyncFunction.marks =
        ["async def task_01_loop():", "async def task_01_2_loop():",
          "async def task_01_2_2_loop():", "async def main():"].map String.toList := by
  obtain ⟨script, hscript⟩ := verdict_eq_ok_iff.mp ((verdict_generate
    (Builder.standard_of_build rfl rfl (Builder.build_default 4)).1
    ⟨[⟨"b1", "modbus_task_definition", true, [("TASK_ID", .text "01")], [], none⟩,
      ⟨"b2", "modbus_task_definition", true, [("TASK_ID", .text "01")], [], none⟩,
      ⟨"b3", "modbus_task_definition", true, [("TASK_ID", .text "01_2")], [], none⟩]⟩).trans rfl)
  exact ⟨script, hscript, (tasks_generate (Builder.build_default 4) hscript).2.2.2.1.trans rfl⟩

end Generator

end PollScript
