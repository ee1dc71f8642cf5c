import Mathlib.Data.List.Induction
import PollScript.Proofs.Finished
import PollScript.Proofs.Passes
import PollScript.Proofs.Tasks

/-!
# The outline of a script

A script consists of its imports, the helper definitions, the code of the
top-level blocks, and the part that launches the tasks. The first two follow from
the live blocks, and the last one from the tasks among the top-level blocks. The
lines that stand out in each part are known, so they are known in the script.

Results:

* `requestAll_texts`: what is requested several times is there once, where it was
  first requested.
* `exists_outline`: the solid lines of a script, part by part.
* `landmarksIn_generate`: the lines of a script that stand out, part by part.
-/

namespace PollScript

open Script

/-! ## What is needed -/

namespace Ledger

theorem requestAll_append (entries front back : List (String × String)) :
    requestAll entries (front ++ back) = requestAll (requestAll entries front) back :=
  List.foldl_append

theorem noteAll_imports (indent : String) (l : Ledger) (blocks : List Block) :
    (l.noteAll indent blocks).imports =
      requestAll l.imports (blocks.flatMap fun b => neededImports b.type) := by
  induction blocks generalizing l with
  | nil => rfl
  | cons b rest ih =>
    show ((l.note indent b).noteAll indent rest).imports = _
    rw [ih, List.flatMap_cons, requestAll_append]
    rfl

theorem noteAll_helpers (indent : String) (l : Ledger) (blocks : List Block) :
    (l.noteAll indent blocks).helpers =
      requestAll l.helpers (blocks.flatMap fun b => neededHelpers indent b.type) := by
  induction blocks generalizing l with
  | nil => rfl
  | cons b rest ih =>
    show ((l.note indent b).noteAll indent rest).helpers = _
    rw [ih, List.flatMap_cons, requestAll_append]
    rfl

theorem has_requestAll (requests : List (String × String)) (key : String) :
    Dictionary.has (requestAll [] requests) key = true ↔ key ∈ requests.map (·.1) := by
  induction requests using List.reverseRecOn with
  | nil => simp [requestAll, Dictionary.has]
  | append_singleton front request ih =>
    rw [requestAll_append, List.map_append, List.mem_append, ← ih]
    show Dictionary.has (Context.request request.1 request.2 (requestAll [] front)).2 key = true ↔ _
    unfold Context.request
    split
    · next hknown =>
      simp only [List.map_cons, List.map_nil, List.mem_singleton, iff_self_or]
      rintro rfl
      exact hknown
    · rw [Dictionary.has_iff, Dictionary.has_iff, List.map_append, List.mem_append]

/-- Requests with the same key have the same text, and the other way around. -/
def Paired (requests : List (String × String)) : Prop :=
  ∀ a ∈ requests, ∀ b ∈ requests, a.1 = b.1 ↔ a.2 = b.2

/-- What is requested several times is there once, where it was first requested. -/
theorem requestAll_texts {requests : List (String × String)} (paired : Paired requests) :
    (requestAll [] requests).map (·.2) = (requests.map (·.2)).eraseDups := by
  induction requests using List.reverseRecOn with
  | nil => rfl
  | append_singleton front request ih =>
    have hfront : Paired front := fun a ha b hb =>
      paired a (List.mem_append_left _ ha) b (List.mem_append_left _ hb)
    have hknown : Dictionary.has (requestAll [] front) request.1 = true ↔
        request.2 ∈ front.map (·.2) := by
      rw [has_requestAll, List.mem_map, List.mem_map]
      constructor
      · rintro ⟨a, ha, heq⟩
        exact ⟨a, ha, (paired a (List.mem_append_left _ ha) request (by simp)).mp heq⟩
      · rintro ⟨a, ha, heq⟩
        exact ⟨a, ha, (paired a (List.mem_append_left _ ha) request (by simp)).mpr heq⟩
    rw [requestAll_append, List.map_append, List.eraseDups_append, ← ih hfront]
    show (Context.request request.1 request.2 (requestAll [] front)).2.map (·.2) = _
    unfold Context.request
    by_cases hmem : request.2 ∈ front.map (·.2)
    · rw [if_pos (hknown.mpr hmem)]
      simp [List.removeAll, hmem]
    · rw [if_neg (mt hknown.mp hmem)]
      simp [List.removeAll, hmem, List.eraseDups_cons]

end Ledger

/-- Whether a line is an import, however deep it is. -/
def isImport (line : List Char) : Bool :=
  Landmark.moduleImport.marks line || Landmark.nameImport.marks line

theorem isLandmark_of_isImport {line : List Char} (h : isImport line = true) :
    isLandmark line = true := by
  rcases Bool.or_eq_true_iff.mp h with h | h
  · exact isLandmark_of_marks (by decide) h
  · exact isLandmark_of_marks (by decide) h

/-- The imports that any type needs. -/
def everyImport : List (String × String) :=
  Catalog.default.flatMap fun spec => neededImports spec.type

/-- The helper definitions that any type needs. -/
def everyHelper (indent : String) : List (String × String) :=
  [(Alarm.helperName, Alarm.helperDefinition indent),
   ("logging_config", Emitters.loggingSetup indent)]

theorem mem_everyImport {type : String} {entry : String × String}
    (h : entry ∈ neededImports type) : entry ∈ everyImport := by
  unfold neededImports at h
  split at h
  all_goals
    revert entry
    decide

theorem mem_everyHelper {indent type : String} {entry : String × String}
    (h : entry ∈ neededHelpers indent type) : entry ∈ everyHelper indent := by
  unfold neededHelpers at h
  split at h
  · simp_all [everyHelper]
  · simp_all [everyHelper]
  · cases h

theorem paired_imports (blocks : List Block) :
    Ledger.Paired (blocks.flatMap fun b => neededImports b.type) := by
  have hevery : ∀ a ∈ everyImport, ∀ b ∈ everyImport, a.1 = b.1 ↔ a.2 = b.2 := by decide
  intro a ha b hb
  obtain ⟨_, _, ha⟩ := List.mem_flatMap.mp ha
  obtain ⟨_, _, hb⟩ := List.mem_flatMap.mp hb
  exact hevery a (mem_everyImport ha) b (mem_everyImport hb)

theorem not_mem_intercalate {separator : String} {parts : List String}
    (hseparator : '\n' ∉ separator.toList) (h : ∀ part ∈ parts, '\n' ∉ part.toList) :
    '\n' ∉ (separator.intercalate parts).toList := by
  induction parts with
  | nil => simp
  | cons part rest ih =>
    have hpart := h part List.mem_cons_self
    have hrest := ih fun p hp => h p (List.mem_cons_of_mem _ hp)
    cases rest with
    | nil => exact hpart
    | cons other rest =>
      rw [String.intercalate_cons_cons]
      simp only [String.toList_append, List.mem_append, not_or]
      exact ⟨⟨hpart, hseparator⟩, hrest⟩

section Helpers

variable {indent : String} (hblank : Text.allBlank indent.toList = true)
  (hline : '\n' ∉ indent.toList)

include hblank hline

theorem silent_branch {introduction : String} (h : Clear (introduction ++ ":"))
    (level : AlarmLevel) : Silent (Alarm.branch indent introduction level) := by
  have hreturn : Clear ("return \"" ++ level.name ++ "\"") := by cases level <;> decide
  have hhead := (h.indented hblank hline).silent
  have hbody := ((hreturn.indented hblank hline).indented hblank hline).silent
  have hcolon : ":\n" = ":" ++ "\n" := rfl
  have hquote : "\"\n" = "\"" ++ "\n" := rfl
  have hbranch := hhead.append hbody
  simp only [String.append_assoc] at hbranch
  simpa only [Alarm.branch, hcolon, hquote, String.append_assoc, -String.reduceAppend] using hbranch

theorem landmarksIn_helperDefinition :
    landmarksIn (Alarm.helperDefinition indent) =
      ["def evaluate_alarm(val, lv1, lv2, lv3):".toList] := by
  have hclause : ∀ clause ∈ Alarm.clauses, ∀ first : Bool, Silent (clause.branch indent first) := by
    intro clause hclause first
    refine silent_branch hblank hline ?_ clause.level
    have hall : ∀ clause ∈ Alarm.clauses, ∀ first : Bool,
        Clear ((if first then "if " else "elif ") ++ clause.condition ++ ":") := by decide
    exact hall clause hclause first
  have hbranches : Silent (Alarm.branches indent Alarm.clauses) :=
    ((hclause _ (by decide) true).append (hclause _ (by decide) false)).append
      (hclause _ (by decide) false)
  have helse : Silent (Alarm.branch indent "else" .lv0) :=
    silent_branch hblank hline (by decide) _
  have hhead : "def " ++ Alarm.helperName ++ "(val, lv1, lv2, lv3):\n" =
      "def evaluate_alarm(val, lv1, lv2, lv3):" ++ "\n" := by rfl
  rw [Alarm.helperDefinition, hhead, String.append_assoc, landmarksIn_append (.inr ⟨_, rfl⟩),
    landmarksIn_of_silent (hbranches.append helse)]
  decide

theorem landmarksIn_loggingSetup :
    landmarksIn (Emitters.loggingSetup indent) = ["logging.basicConfig(".toList] := by
  have harguments : ∀ argument ∈ [("level", "logging.INFO"),
      ("format", quote "%(asctime)s [%(levelname)s] %(message)s"),
      ("datefmt", quote "%H:%M:%S")], Clear (argument.1 ++ "=") ∧ Trails argument.2 := by
    simp only [List.forall_mem_cons]
    exact ⟨⟨by decide, by decide⟩, ⟨by decide, (clear_quote _).trails⟩,
      ⟨by decide, (clear_quote _).trails⟩, fun _ h => nomatch h⟩
  obtain ⟨rest, hrest, heq⟩ := exists_callWithKeywords "logging.basicConfig" hblank hline
    (List.cons_ne_nil _ _) harguments
  rw [Emitters.loggingSetup, heq, landmarksIn_append (.inr ⟨_, rfl⟩), landmarksIn_of_clear hrest]
  decide

/-- The line that begins the function which launches the tasks. -/
def mainLine : List Char :=
  "async def main():".toList

/-- The line that keeps what is behind it to runs of the script itself. -/
def guardLine : List Char :=
  "if __name__ == \"__main__\":".toList

/-- The solid lines that launch the tasks, if there are any. -/
def launch (indent : String) (names : List String) : List (List Char) :=
  if names.isEmpty then [] else Text.solidLines (Context.runner indent names).toList

/-- The landmarks among the lines that launch the tasks. -/
def launchMarks (indent : String) (names : List String) : List (List Char) :=
  if names.isEmpty then [] else [mainLine, (gatherLine indent names).toList, guardLine]

theorem landmarksIn_gatherLine {names : List String} (hnames : ∀ name ∈ names, '\n' ∉ name.toList) :
    landmarksIn (gatherLine indent names ++ "\n") = [(gatherLine indent names).toList] := by
  have hchars : (gatherLine indent names).toList = indent.toList ++ (Landmark.gather.chars ++
      ((", ".intercalate (names.map (· ++ "()"))).toList ++ [')'])) := by
    simp only [gatherLine, String.toList_append, List.append_assoc]
    rfl
  have hcalls : '\n' ∉ (", ".intercalate (names.map (· ++ "()"))).toList := by
    refine not_mem_intercalate (by decide) fun part hpart => ?_
    obtain ⟨name, hname, rfl⟩ := List.mem_map.mp hpart
    simp [hnames name hname]
  have hlast : (gatherLine indent names).toList = indent.toList ++ (Landmark.gather.chars ++
      (", ".intercalate (names.map (· ++ "()"))).toList) ++ [')'] := by
    rw [hchars]
    simp only [List.append_assoc]
  have hgather : Landmark.gather ∈ landmarks := by decide
  refine landmarksIn_line ?_ hlast (by decide) ?_
  · rw [hchars]
    simp only [List.mem_append, not_or]
    exact ⟨hline, by decide, hcalls, by decide⟩
  · rw [hchars, isLandmark_indent hblank]
    refine isLandmark_of_marks hgather (Landmark.marks_of_begins hgather ?_)
    exact List.isPrefixOf_iff_prefix.mpr (List.prefix_append _ _)

/-- The landmarks of the part that launches the tasks. -/
theorem landmarksIn_runner {names : List String} (hnames : ∀ name ∈ names, '\n' ∉ name.toList) :
    landmarksIn (Context.runner indent names) =
      [mainLine, (gatherLine indent names).toList, guardLine] := by
  have htry : Silent (indent ++ "try:" ++ "\n") :=
    (Clear.indented hblank hline (show Clear "try:" by decide)).silent
  have hrun : Silent (indent ++ (indent ++ "asyncio.run(main())") ++ "\n") :=
    (Clear.indented hblank hline (Clear.indented hblank hline
      (show Clear "asyncio.run(main())" by decide))).silent
  have hexcept : Silent (indent ++ "except KeyboardInterrupt:" ++ "\n") :=
    (Clear.indented hblank hline (show Clear "except KeyboardInterrupt:" by decide)).silent
  have hpass : Silent (indent ++ (indent ++ "pass") ++ "\n") :=
    (Clear.indented hblank hline (Clear.indented hblank hline
      (show Clear "pass" by decide))).silent
  have hrest := ((htry.append hrun).append hexcept).append hpass
  have hrunner : Context.runner indent names =
      "async def main():\n" ++ (gatherLine indent names ++ "\n" ++ ("\n\n" ++
        ("if __name__ == \"__main__\":\n" ++ (indent ++ "try:" ++ "\n" ++
          (indent ++ (indent ++ "asyncio.run(main())") ++ "\n") ++
          (indent ++ "except KeyboardInterrupt:" ++ "\n") ++
          (indent ++ (indent ++ "pass") ++ "\n"))))) := by
    have hclose : ")\n" = ")" ++ "\n" := rfl
    have hline₁ : "try:\n" = "try:" ++ "\n" := rfl
    have hline₂ : "asyncio.run(main())\n" = "asyncio.run(main())" ++ "\n" := rfl
    have hline₃ : "except KeyboardInterrupt:\n" = "except KeyboardInterrupt:" ++ "\n" := rfl
    have hline₄ : "pass\n" = "pass" ++ "\n" := rfl
    unfold Context.runner gatherLine
    rw [hclose, hline₁, hline₂, hline₃, hline₄]
    simp only [String.append_assoc, -String.reduceAppend]
  have hmain : EndsLine "async def main():\n" := .inr ⟨"async def main():", rfl⟩
  have hgap : EndsLine "\n\n" := .inr ⟨"\n", rfl⟩
  have hguard : EndsLine "if __name__ == \"__main__\":\n" :=
    .inr ⟨"if __name__ == \"__main__\":", rfl⟩
  rw [hrunner, landmarksIn_append hmain, landmarksIn_append (.inr ⟨_, rfl⟩),
    landmarksIn_append hgap, landmarksIn_append hguard, landmarksIn_of_silent hrest,
    landmarksIn_gatherLine hblank hline hnames]
  rfl

/-- The landmarks among the lines that launch the tasks. -/
theorem filter_launch {names : List String} (hnames : ∀ name ∈ names, '\n' ∉ name.toList) :
    (launch indent names).filter isLandmark = launchMarks indent names := by
  unfold launch launchMarks
  by_cases hempty : names.isEmpty = true
  · rw [if_pos hempty, if_pos hempty, List.filter_nil]
  · rw [if_neg hempty, if_neg hempty, ← landmarksIn_runner hblank hline hnames, landmarksIn]

theorem paired_helpers (blocks : List Block) :
    Ledger.Paired (blocks.flatMap fun b => neededHelpers indent b.type) := by
  have hne : Alarm.helperDefinition indent ≠ Emitters.loggingSetup indent := by
    intro heq
    have hmarks := congrArg landmarksIn heq
    rw [landmarksIn_helperDefinition hblank hline, landmarksIn_loggingSetup hblank hline] at hmarks
    revert hmarks
    decide
  have hname : Alarm.helperName ≠ "logging_config" := by decide
  have hevery : ∀ a ∈ everyHelper indent, ∀ b ∈ everyHelper indent, a.1 = b.1 ↔ a.2 = b.2 := by
    simp [everyHelper, hne, hne.symm, hname, hname.symm]
  intro a ha b hb
  obtain ⟨_, _, ha⟩ := List.mem_flatMap.mp ha
  obtain ⟨_, _, hb⟩ := List.mem_flatMap.mp hb
  exact hevery a (mem_everyHelper ha) b (mem_everyHelper hb)

end Helpers

/-- The import lines that the live blocks need, in the order of their first need. -/
def Registry.importLines (r : Registry) (w : Workspace) : List String :=
  ((r.liveBlocks w).flatMap fun b => (neededImports b.type).map (·.2)).eraseDups

/-- The helper definitions that the live blocks need, in the order of their first
    need. -/
def Registry.helperTexts (r : Registry) (indent : String) (w : Workspace) : List String :=
  ((r.liveBlocks w).flatMap fun b => (neededHelpers indent b.type).map (·.2)).eraseDups

/-- The names of the tasks, in the order of their blocks. -/
def Workspace.taskNames (w : Workspace) : List String :=
  TaskName.assign [] w.taskIds

/-! ## The parts of a script -/

/-- The lines of the header are its solid lines. -/
theorem solidLines_header {ls : List String}
    (h : ∀ line ∈ ls, Text.solidLines line.toList = [line.toList]) :
    Text.solidLines ("\n".intercalate ls).toList = ls.map String.toList := by
  rw [String.toList_intercalate]
  refine (Text.solidLines_intercalate 0 _).trans ?_
  induction ls with
  | nil => rfl
  | cons line rest ih =>
    rw [List.map_cons, List.flatMap_cons, h line List.mem_cons_self,
      ih fun l hl => h l (List.mem_cons_of_mem _ hl)]
    rfl

/-- The solid lines of a script come from its header, the helper definitions, the
    texts of the top-level blocks, and the part that launches the tasks. -/
theorem Script.Context.solidLines_sections {c : Context} (chunks : List String)
    (h : ∀ line ∈ c.headerLines, Text.solidLines line.toList = [line.toList]) :
    Text.solidLines (c.finalize (Generator.joinChunks chunks)).1.toList =
      c.headerLines.map String.toList ++
        (c.helpers.flatMap fun entry => Text.solidLines entry.2.toList) ++
        (chunks.flatMap fun code => Text.solidLines code.toList) ++
        if c.tasks.isEmpty then [] else Text.solidLines (runner c.indent c.tasks).toList := by
  have hheader : (if c.headerLines.isEmpty then [] else ["\n".intercalate c.headerLines]).flatMap
      (fun part => Text.solidLines part.toList) = c.headerLines.map String.toList := by
    split
    · next hempty => rw [List.isEmpty_iff.mp hempty]; rfl
    · rw [List.flatMap_singleton, solidLines_header h]
  have hrunner : (if c.tasks.isEmpty then [] else [runner c.indent c.tasks]).flatMap
      (fun part => Text.solidLines part.toList) =
      if c.tasks.isEmpty then [] else Text.solidLines (runner c.indent c.tasks).toList := by
    split
    · rfl
    · rw [List.flatMap_singleton]
  rw [solidLines_finalize, sections, arrange]
  simp only [List.flatMap_append, hheader, hrunner, List.flatMap_map, List.flatMap_singleton,
    Generator.solidLines_joinChunks]

/-- Launching tasks needs no further import if a task has requested it. -/
theorem Script.Context.headerLines_eq {c : Context}
    (h : c.tasks ≠ [] → Dictionary.has c.imports "asyncio" = true) :
    c.headerLines = c.imports.map (·.2) := by
  unfold headerLines
  split
  · rfl
  · next htasks =>
    have hknown := h (by simpa using htasks)
    rw [request, if_pos hknown]

namespace Generator

variable {g : Generator} {w : Workspace} {script : String}

/-- The texts of the top-level blocks keep the unit of indentation. -/
theorem indent_topLevels (g : Generator) (w : Workspace) (pass : Pass) :
    ((g.topLevels w).run.run pass).2.context.indent = pass.context.indent := by
  refine (g.ensures_topLevels (fun _ => True) trivial (fun b => ?_)
    (fun b => (g.ensures_indent pass.context.indent b).2 false) pass rfl).1
  refine (g.ensures_indent pass.context.indent b).1.mono fun f _ => ?_
  cases f with
  | expression code order => trivial
  | statement code => trivial

/-- Names of tasks come from tasks among the top-level blocks. -/
theorem exists_task (h : w.taskNames ≠ []) : ∃ b ∈ w.blocks, b.isTask = true := by
  by_contra hnone
  have hids : w.taskIds = [] := by
    rw [Workspace.taskIds, List.map_eq_nil_iff, List.filter_eq_nil_iff]
    exact fun b hb htask => hnone ⟨b, hb, htask⟩
  rw [Workspace.taskNames, hids] at h
  exact h rfl

/-- A task among the top-level blocks is live. -/
theorem mem_liveBlocks_task {spec : BlockSpec} (hspec : g.registry.get? taskType = some spec)
    {b : Block} (hb : b ∈ w.blocks) (htask : b.isTask = true) :
    b ∈ g.registry.liveBlocks w := by
  obtain ⟨htype, henabled⟩ : b.type = taskType ∧ b.enabled = true := by
    simpa [Block.isTask] using htask
  obtain ⟨n, hn⟩ := List.mem_iff_getElem?.mp hb
  have hlive : (n, ⟨[], b⟩) ∈ g.registry.live w :=
    (g.registry.mem_live_iff w n ⟨[], b⟩).mpr ⟨b, spec, hn, htype ▸ hspec, .here henabled⟩
  exact List.mem_map.mpr ⟨_, hlive, rfl⟩

theorem indent_of_build {width : Nat}
    (built : (Builder.default.indentWidth width).build = .ok g) :
    Text.allBlank g.indent.toList = true ∧ '\n' ∉ g.indent.toList := by
  have hindent : g.indent.toList = List.replicate (max width 1) ' ' := by
    rw [(Builder.plain_of_build built).2]
    simp [Builder.indentWidth]
  rw [hindent]
  constructor
  · rw [Text.allBlank, List.all_eq_true]
    intro c hc
    rw [List.eq_of_mem_replicate hc]
    decide
  · intro hmem
    have heq := List.eq_of_mem_replicate hmem
    revert heq
    decide

theorem task_of_build {width : Nat}
    (built : (Builder.default.indentWidth width).build = .ok g) :
    g.registry.get? taskType = some Catalog.taskDefinition := by
  rw [Builder.build_default] at built
  rw [← Except.ok.inj built]
  rfl

/-- Where there is a task, a live block needs the import that launching it needs. -/
theorem exists_needs_asyncio {width : Nat}
    (built : (Builder.default.indentWidth width).build = .ok g) (h : w.taskNames ≠ []) :
    ∃ b ∈ g.registry.liveBlocks w, ("asyncio", "import asyncio") ∈ neededImports b.type := by
  obtain ⟨b, hb, htask⟩ := exists_task h
  refine ⟨b, mem_liveBlocks_task (task_of_build built) hb htask, ?_⟩
  rw [beq_iff_eq.mp (Bool.and_eq_true_iff.mp htask).1]
  decide

theorem solidLines_import :
    ∀ entry ∈ everyImport, Text.solidLines entry.2.toList = [entry.2.toList] := by
  decide

theorem mem_importLines {line : String} (h : line ∈ g.registry.importLines w) :
    ∃ entry ∈ everyImport, line = entry.2 := by
  rw [Registry.importLines, List.mem_eraseDups, List.mem_flatMap] at h
  obtain ⟨b, -, h⟩ := h
  obtain ⟨entry, hentry, rfl⟩ := List.mem_map.mp h
  exact ⟨entry, mem_everyImport hentry, rfl⟩

theorem isImport_of_mem {line : List Char}
    (h : line ∈ (g.registry.importLines w).map String.toList) : isImport line = true := by
  obtain ⟨text, htext, rfl⟩ := List.mem_map.mp h
  obtain ⟨entry, hentry, rfl⟩ := mem_importLines htext
  have hevery : ∀ entry ∈ everyImport, isImport entry.2.toList = true := by decide
  exact hevery entry hentry

theorem mem_helperTexts {indent text : String} (h : text ∈ g.registry.helperTexts indent w) :
    text = Alarm.helperDefinition indent ∨ text = Emitters.loggingSetup indent := by
  rw [Registry.helperTexts, List.mem_eraseDups, List.mem_flatMap] at h
  obtain ⟨b, -, h⟩ := h
  obtain ⟨entry, hentry, rfl⟩ := List.mem_map.mp h
  have hmem := mem_everyHelper hentry
  simp only [everyHelper, List.mem_cons, List.not_mem_nil, or_false] at hmem
  rcases hmem with rfl | rfl
  · exact .inl rfl
  · exact .inr rfl

/-- A script is finalised from the texts of the top-level blocks, and from a context
    with what the live blocks need and with the tasks that the texts define. -/
theorem exists_collected {width : Nat}
    (built : (Builder.default.indentWidth width).build = .ok g)
    (h : g.generate w = .ok script) :
    ∃ chunks c, script = (Context.finalize (joinChunks chunks) c).1 ∧ c.indent = g.indent ∧
      c.imports = Ledger.requestAll []
        ((g.registry.liveBlocks w).flatMap fun b => neededImports b.type) ∧
      c.helpers = Ledger.requestAll []
        ((g.registry.liveBlocks w).flatMap fun b => neededHelpers g.indent b.type) ∧
      c.tasks = w.taskNames ∧ chunks.flatMap landmarksIn = w.taskNames.map definitionLine := by
  obtain ⟨hplain, -⟩ := Builder.plain_of_build built
  obtain ⟨hblank, hline⟩ := indent_of_build built
  obtain ⟨chunks, pass, hrun, hledger, hscript⟩ := exists_ledger_of_generate hplain h
  have hok : ((g.topLevels w).run.run ⟨Context.withIndent g.indent, []⟩).1 = .ok chunks := by
    rw [hrun]
  have hdefines := defines_topLevels hplain hblank hline w hok
  have hindent := indent_topLevels g w ⟨Context.withIndent g.indent, []⟩
  rw [hrun] at hdefines hindent
  refine ⟨chunks, pass.context, hscript, hindent, ?_, ?_, hdefines.1, hdefines.2⟩
  · rw [← Ledger.noteAll_imports g.indent ⟨[], [], []⟩, ← hledger]
    rfl
  · rw [← Ledger.noteAll_helpers g.indent ⟨[], [], []⟩, ← hledger]
    rfl

/-- The solid lines of a script, part by part: the imports and the helper definitions
    that its live blocks need, code whose landmarks are the definitions of the
    tasks, and the launch of the tasks if there are any. -/
theorem exists_outline {width : Nat}
    (built : (Builder.default.indentWidth width).build = .ok g)
    (h : g.generate w = .ok script) :
    ∃ code : List (List Char),
      Text.solidLines script.toList =
        (g.registry.importLines w).map String.toList ++
          ((g.registry.helperTexts g.indent w).flatMap fun text => Text.solidLines text.toList) ++
          code ++ launch g.indent w.taskNames ∧
        code.filter isLandmark = w.taskNames.map definitionLine := by
  obtain ⟨hblank, hline⟩ := indent_of_build built
  obtain ⟨chunks, c, hscript, hindent, himports, hhelpers, htasks, hmarks⟩ :=
    exists_collected built h
  have hlines : c.imports.map (·.2) = g.registry.importLines w := by
    rw [himports, Ledger.requestAll_texts (paired_imports _), List.map_flatMap]
    rfl
  have htexts : c.helpers.map (·.2) = g.registry.helperTexts g.indent w := by
    rw [hhelpers, Ledger.requestAll_texts (paired_helpers hblank hline _), List.map_flatMap]
    rfl
  have hheader : c.headerLines = g.registry.importLines w := by
    rw [Context.headerLines_eq, hlines]
    intro hne
    obtain ⟨b, hb, hneeded⟩ := exists_needs_asyncio built (htasks ▸ hne)
    rw [himports, Ledger.has_requestAll, List.map_flatMap, List.mem_flatMap]
    exact ⟨b, hb, List.mem_map.mpr ⟨_, hneeded, rfl⟩⟩
  have hsolid : ∀ line ∈ c.headerLines, Text.solidLines line.toList = [line.toList] := by
    intro line hmem
    rw [hheader] at hmem
    obtain ⟨entry, hentry, rfl⟩ := mem_importLines hmem
    exact solidLines_import entry hentry
  refine ⟨chunks.flatMap fun code => Text.solidLines code.toList, ?_, ?_⟩
  · rw [hscript, Context.solidLines_sections chunks hsolid, hheader, ← htexts, htasks, hindent,
      List.flatMap_map, launch]
  · rw [List.filter_flatMap]
    exact hmarks

/-- The name of a task is made from the id of a block, which has characters of names
    only. -/
theorem exists_of_mem_taskNames {name : String} (h : name ∈ w.taskNames) :
    ∃ b : Block, TaskName.Derived b.taskId name ∧
      ∀ c ∈ b.taskId.toList, isNameChar c = true := by
  obtain ⟨id, hid, hderived⟩ := TaskName.exists_of_mem_assign h
  obtain ⟨b, -, rfl⟩ := List.mem_map.mp hid
  exact ⟨b, hderived, nameFragment_isNameChar _⟩

theorem not_mem_taskNames (w : Workspace) : ∀ name ∈ w.taskNames, '\n' ∉ name.toList := by
  intro name hname
  obtain ⟨b, hderived, hid⟩ := exists_of_mem_taskNames hname
  exact not_mem_of_isNameChar (hderived.isNameChar hid)

/-- The landmarks of a script, part by part. -/
theorem landmarksIn_generate {width : Nat}
    (built : (Builder.default.indentWidth width).build = .ok g)
    (h : g.generate w = .ok script) :
    landmarksIn script =
      (g.registry.importLines w).map String.toList ++
        (g.registry.helperTexts g.indent w).flatMap landmarksIn ++
        w.taskNames.map definitionLine ++ launchMarks g.indent w.taskNames := by
  obtain ⟨hblank, hline⟩ := indent_of_build built
  obtain ⟨code, hsolid, hcode⟩ := exists_outline built h
  have himports : ((g.registry.importLines w).map String.toList).filter isLandmark =
      (g.registry.importLines w).map String.toList := by
    rw [List.filter_eq_self]
    intro line hmem
    exact isLandmark_of_isImport (isImport_of_mem hmem)
  have hhelpers : ((g.registry.helperTexts g.indent w).flatMap fun text =>
      Text.solidLines text.toList).filter isLandmark =
      (g.registry.helperTexts g.indent w).flatMap landmarksIn := by
    rw [List.filter_flatMap]
    rfl
  rw [landmarksIn, hsolid, List.filter_append, List.filter_append, List.filter_append, himports,
    hhelpers, hcode, filter_launch hblank hline (not_mem_taskNames w)]

/-- A script is in its normal form. -/
theorem exists_tidy_of_generate (h : g.generate w = .ok script) :
    ∃ code, script = Text.tidy code := by
  have hpass : Generation.Ensures (fun _ => True) (fun _ => True) (g.topLevels w) :=
    fun _ _ => ⟨True.intro, fun _ _ => True.intro⟩
  obtain ⟨chunks, pass, -, -, hscript⟩ := exists_of_generate_eq_ok g hpass True.intro h
  exact ⟨Context.joinSections (pass.context.sections (joinChunks chunks)),
    hscript.trans (Context.finalize_fst _ _)⟩

/-- Lines that stand out are found among the landmarks of a script. -/
theorem filter_lines_generate (h : g.generate w = .ok script) {p : List Char → Bool}
    (hp : ∀ line, p line = true → isLandmark line = true) :
    (Text.lines script.toList).filter p = (landmarksIn script).filter p := by
  have hempty : p [] = false := by
    rw [Bool.eq_false_iff]
    intro hnil
    have hmark := hp [] hnil
    revert hmark
    decide
  have hsolid : (Text.lines script.toList).filter p = (Text.solidLines script.toList).filter p := by
    obtain ⟨code, rfl⟩ := exists_tidy_of_generate h
    exact Text.filter_lines_tidy code hempty
  rw [hsolid, landmarksIn, List.filter_filter]
  refine List.filter_congr fun line _ => ?_
  cases hline : p line with
  | true => simp [hp line hline]
  | false => rfl

end Generator

end PollScript
