import PollScript.Proofs.Landmarks
import PollScript.Proofs.Ledger
import PollScript.Proofs.TaskNames

/-!
# Tasks of a pass

A task begins a chain and gives no value, so only a top-level block can be one.
All other blocks register no task and make code without landmarks, wherever they
are. A pass therefore registers one task for each enabled task among its top-level
blocks, in their order, and the definitions of these tasks are the only landmarks
of its code.

Results:

* `leads_taskDefinition`: a task is registered under a free name, and its code is
  the function of that name.
* `still`: what is attached to something has no landmarks and registers no task.
* `defines_topLevels`: a pass registers the tasks that its code defines.
-/

namespace PollScript

open Script

/-- The name of the type of tasks. -/
def taskType : String := "modbus_task_definition"

/-- Whether a block is a task that takes part. -/
def Block.isTask (b : Block) : Bool :=
  b.type == taskType && b.enabled

/-- The part of the task's name that is made from its id. -/
def Block.taskId (b : Block) : String :=
  nameFragment (b.textOr "TASK_ID" "01")

/-- The ids of the tasks among the top-level blocks, in their order. -/
def Workspace.taskIds (w : Workspace) : List String :=
  (w.blocks.filter Block.isTask).map Block.taskId

/-- The tasks that a pass has registered. -/
def Pass.tasks (pass : Pass) : List String :=
  pass.context.tasks

/-- The line that begins the function of a task. -/
def definitionLine (name : String) : List Char :=
  ("async def " ++ name ++ "():").toList

/-! ## The code of a task -/

theorem begins_definitionLine (name : String) :
    Landmark.asyncFunction.begins (definitionLine name) = true := by
  rw [definitionLine, String.toList_append, String.toList_append, List.append_assoc,
    Landmark.begins, List.isPrefixOf_iff_prefix]
  exact List.prefix_append _ _

theorem landmarksIn_definitionLine {name : String} (hname : '\n' ∉ name.toList) :
    landmarksIn ("async def " ++ name ++ "():" ++ "\n") = [definitionLine name] := by
  have hlast : ("async def " ++ name ++ "():").toList =
      ("async def " ++ name).toList ++ ['(', ')'] ++ [':'] := by
    rw [String.toList_append, List.append_assoc]
    rfl
  refine landmarksIn_line ?_ hlast (by decide) ?_
  · simp [hname]
  · exact isLandmark_of_marks List.mem_cons_self
      (Landmark.marks_of_begins List.mem_cons_self (begins_definitionLine name))

section Function

variable {indent : String} (hblank : Text.allBlank indent.toList = true)
  (hline : '\n' ∉ indent.toList)

include hblank hline

/-- Behind its first line, the function of a task has no landmarks. -/
theorem exists_taskFunction {body : String} (hbody : Silent body) (name : String)
    (interval : Float) :
    ∃ rest, Silent rest ∧
      Emitters.taskFunction name indent body interval =
        "async def " ++ name ++ "():" ++ "\n" ++ rest := by
  have hwhile : Silent (indent ++ "while True:" ++ "\n") :=
    (Clear.indented hblank hline (show Clear "while True:" by decide)).silent
  have hset : Silent (indent ++ (indent ++ ("set_interval_frequency(" ++
      number (interval * 1000) ++ ")")) ++ "\n") :=
    (Clear.indented hblank hline (Clear.indented hblank hline
      (clear_enclosed (by decide) (clear_number _).trails (by decide)))).silent
  have hsleep : Silent (indent ++ (indent ++ ("await asyncio.sleep(" ++
      number interval ++ ")")) ++ "\n") :=
    (Clear.indented hblank hline (Clear.indented hblank hline
      (clear_enclosed (by decide) (clear_number _).trails (by decide)))).silent
  have hlines := silent_indentLines hblank hline hbody
  refine ⟨_, ((hwhile.append hset).append hlines).append hsleep, ?_⟩
  have hdef : "():\n" = "():" ++ "\n" := rfl
  have hloop : "while True:\n" = "while True:" ++ "\n" := rfl
  have hclose : ")\n" = ")" ++ "\n" := rfl
  unfold Emitters.taskFunction
  simp only [hdef, hloop, hclose, String.append_assoc, -String.reduceAppend]

/-- The only landmark of a task's function is its first line. -/
theorem landmarksIn_taskFunction {body : String} (hbody : Silent body) {name : String}
    (hname : '\n' ∉ name.toList) (interval : Float) :
    EndsLine (Emitters.taskFunction name indent body interval) ∧
      landmarksIn (Emitters.taskFunction name indent body interval) = [definitionLine name] := by
  obtain ⟨rest, hrest, heq⟩ := exists_taskFunction hblank hline hbody name interval
  rw [heq]
  refine ⟨?_, ?_⟩
  · rcases hrest.1 with rfl | ⟨more, rfl⟩
    · exact .inr ⟨_, String.append_empty⟩
    · exact .inr ⟨"async def " ++ name ++ "():" ++ "\n" ++ more, (String.append_assoc).symm⟩
  · rw [landmarksIn_append (.inr ⟨_, rfl⟩), landmarksIn_of_silent hrest, List.append_nil]
    exact landmarksIn_definitionLine hname

end Function

/-- How the answers to questions move the tasks of a pass, as far as the emitter of
    the task `b` is concerned. -/
def taskMoves (b : Block) :
    (query : Query) → List String → query.Answer → List String → Prop
  | .context (.registerTask name), tasks, _, tasks' => tasks' = tasks ++ [name]
  | .context .reset, _, _, _ | .context (.finalize _), _, _, _ | .value .., _, _, _ => True
  | .context _, tasks, _, tasks' | .report _, tasks, _, tasks' | .fieldNumber _, tasks, _, tasks' =>
    tasks' = tasks
  | .recorded, tasks, answer, tasks' => answer.tasks = tasks ∧ tasks' = tasks
  | .fieldText slot, tasks, answer, tasks' =>
    tasks' = tasks ∧ ∀ t, answer = .ok t → slot = "TASK_ID" → t = b.textOr "TASK_ID" "01"
  | .body _, tasks, answer, tasks' => tasks' = tasks ∧ ∀ code, answer = .ok code → Silent code

/-- A task is registered under a free name, and its code is the function of that
    name. -/
theorem leads_taskDefinition (b : Block) (indent : String) (tasks : List String) :
    (Emitters.taskDefinition b indent).run.Leads (taskMoves b)
      (fun result tasks' => ∀ f, result = .ok f →
        tasks' = tasks ++ [TaskName.choose tasks b.taskId] ∧
          ∃ body interval, Silent body ∧
            f = .statement
              (Emitters.taskFunction (TaskName.choose tasks b.taskId) indent body interval))
      tasks := by
  rintro - _ rfl
  rintro - _ rfl
  rintro id _ ⟨rfl, hid⟩
  cases id with
  | error e => exact fun _ hf => nomatch hf
  | ok id =>
  obtain rfl : id = b.textOr "TASK_ID" "01" := hid id rfl rfl
  rintro interval _ rfl
  cases interval with
  | error e => exact fun _ hf => nomatch hf
  | ok interval =>
  rintro recorded _ ⟨rfl, rfl⟩
  -- the name is chosen before the task is registered, and the body is asked for after
  have rest : ∀ name, Program.Leads (taskMoves b)
      (fun result tasks' => ∀ f, result = .ok f → tasks' = recorded.tasks ++ [name] ∧
        ∃ body interval, Silent body ∧
          f = .statement (Emitters.taskFunction name indent body interval))
      (ExceptT.run do
        Emit.perform (.registerTask name)
        Emit.perform .enterTask
        let body ← Emit.ask (.body "DO")
        Emit.perform .leaveTask
        return Fragment.statement
          (Emitters.taskFunction name indent (← Emit.check body) interval))
      recorded.tasks := by
    rintro name - _ rfl
    rintro - _ rfl
    rintro body _ ⟨rfl, hbody⟩
    rintro - _ rfl
    cases body with
    | error e => exact fun _ hf => nomatch hf
    | ok body =>
      rintro f hf
      cases hf
      exact ⟨rfl, body, interval, hbody body rfl, rfl⟩
  dsimp only [Program.bind, Function.comp_apply, ExceptT.bindCont]
  split
  · rintro - _ rfl
    exact rest _
  · exact rest _

/-! ## Blocks that register no task -/

namespace Generator

variable {g : Generator} {b : Block}

/-- A type of tasks gives no value and follows nothing. -/
theorem Plain.task_spec (hplain : g.Plain) {spec : BlockSpec}
    (htype : g.registry.get? taskType = some spec) :
    spec.output = none ∧ spec.followsOthers = false := by
  have htasks : ∀ e ∈ builtins, e.spec.type = taskType →
      e.spec.output = none ∧ e.spec.followsOthers = false := by
    intro e he
    have hall : ∀ spec ∈ Catalog.default, spec.type = taskType →
        spec.output = none ∧ spec.followsOthers = false := by decide +kernel
    exact hall e.spec (mem_catalog he)
  rcases hplain taskType with ⟨hnone, -⟩ | ⟨e, he, hname, hnamed, -⟩
  · rw [hnone] at htype
    cases htype
  · rw [hnamed] at htype
    cases htype
    exact htasks e he hname

/-- A block alone, unless it is a task, and a chain that is attached to something
    register no task and have no landmarks. -/
def Still (g : Generator) (b : Block) : Prop :=
  ∀ tasks : List String,
    (b.type ≠ taskType → Generation.Ensures (fun pass => pass.tasks = tasks) Quiet
      (g.resolve b).emitted) ∧
    Generation.Ensures (fun pass => pass.tasks = tasks) Silent ((g.resolve b).chain true)

/-- A spliced value is calm if the value and the default are. -/
theorem calm_of_splice {outer : Order} {default code : String} {child : Block} {f : Fragment}
    (hdefault : Calm default) (hf : Quiet f) (h : splice outer default child f = .ok code) :
    Calm code := by
  obtain ⟨text, order, rfl, ⟨-, rfl⟩ | ⟨-, -, rfl⟩ | ⟨-, -, rfl⟩⟩ := splice_eq_ok h
  · exact hdefault
  · exact .inl (clear_enclosed (by decide) (Calm.trails hf) (by decide))
  · exact hf

theorem ensures_calm_valueOf (hplain : g.Plain) {slot default : String} {outer : Order}
    (inputs : ∀ name child, b.input? name = some child → g.Still child) (tasks : List String)
    (hdefault : Calm default) :
    Generation.Ensures (fun pass => pass.tasks = tasks) Calm
      (g.valueOf b slot outer default ((b.input? slot).map g.resolve)) := by
  refine (g.ensures_valueOf (fun _ f => Quiet f) fun child hchild => ?_).mono ?_
  · obtain ⟨hconnected, -, check, spec, output, -, hspec, houtput, -⟩ := g.supplier_eq_some hchild
    obtain ⟨c, hc, rfl⟩ := Option.map_eq_some_iff.mp hconnected
    refine (inputs slot c hc tasks).1 fun htype => ?_
    -- a task gives no value
    rw [resolve_block, specOf_eq_ok, htype] at hspec
    rw [(hplain.task_spec hspec).1] at houtput
    cases houtput
  · rintro code (⟨-, rfl⟩ | ⟨child, f, -, hf, hcode⟩)
    · exact hdefault
    · exact calm_of_splice hdefault hf hcode

/-- A task cannot be attached to anything. -/
theorem checkLink_task (hplain : g.Plain) (htask : b.type = taskType) :
    ∃ e, g.checkLink b true = .error e := by
  unfold checkLink
  cases hspec : g.specOf b with
  | error e => exact ⟨e, rfl⟩
  | ok spec =>
    rw [specOf_eq_ok, htask] at hspec
    obtain ⟨houtput, hfollows⟩ := hplain.task_spec hspec
    simp only [bind, Except.bind, BlockSpec.isValueBlock, houtput, hfollows]
    exact ⟨_, rfl⟩

theorem builtin_task {e : Builtin} (he : e ∈ builtins) (h : e.spec.type = taskType) :
    e = ⟨Catalog.taskDefinition, Emitters.taskDefinition⟩ :=
  builtin_eq_of_type he (by simp [builtins]) h

theorem not_mem_choose (tasks : List String) (b : Block) :
    '\n' ∉ (TaskName.choose tasks b.taskId).toList :=
  not_mem_of_isNameChar
    ((TaskName.derived_choose tasks b.taskId).isNameChar (nameFragment_isNameChar _))

section Passes

variable (hplain : g.Plain) (hblank : Text.allBlank g.indent.toList = true)
  (hline : '\n' ∉ g.indent.toList)

include hplain hblank hline

omit hblank hline in
/-- What the emitter of a type makes of calm values, the emission of a block makes. -/
theorem ensures_emitted_of_meets {post : Fragment → Prop}
    (inputs : ∀ name child, b.input? name = some child → g.Still child)
    (meets : ∀ e ∈ builtins, e.spec.type = b.type →
      (e.emitter b g.indent).Meets (quietContract e.spec) post) (tasks : List String) :
    Generation.Ensures (fun pass => pass.tasks = tasks) post (g.resolve b).emitted := by
  rcases hplain b.type with ⟨-, hemitter⟩ | ⟨e, he, hname, htype, hemitter⟩
  · rw [resolve_emitted]
    unfold emit
    rw [hemitter]
    exact .throw
  refine g.ensures_emitted (quietContract e.spec) ?_ ?_ ?_ ?_ ?_ ?_ ?_ ?_
  · exact fun slot outer default hdefault => ensures_calm_valueOf hplain inputs tasks hdefault
  · intro slot
    refine (g.ensures_bodyOf (fun _ => Silent) fun first hfirst => ?_).mono fun _ _ => trivial
    obtain ⟨c, hc, rfl⟩ := Option.map_eq_some_iff.mp hfirst
    exact (inputs slot c hc tasks).2
  · exact fun slot t ht first rest hslot => (fieldText_eq_choice htype hslot ht).2
  · exact fun _ _ _ => trivial
  · exact fun _ _ => trivial
  · intro operation hdoes pass hpass
    cases operation with
    | requireImport key line => exact hpass
    | provideHelper key code => exact hpass
    | _ => exact hdoes.elim
  · exact fun _ _ hpass => hpass
  · intro emitter hfound
    rw [hemitter] at hfound
    cases hfound
    exact meets e he hname

/-- The emission of a block that is no task. -/
theorem ensures_quiet_emitted
    (inputs : ∀ name child, b.input? name = some child → g.Still child)
    (htask : b.type ≠ taskType) (tasks : List String) :
    Generation.Ensures (fun pass => pass.tasks = tasks) Quiet (g.resolve b).emitted :=
  ensures_emitted_of_meets hplain inputs
    (fun _ he hname => quiet_builtins he (hname ▸ htask) b hblank hline) tasks

/-- What is attached to something registers no task and has no landmarks, and
    nor does any value. -/
theorem still (b : Block) : g.Still b := by
  induction b using Block.tree_induction with
  | step b inputs next =>
    intro tasks
    refine ⟨fun htask => ensures_quiet_emitted hplain hblank hline inputs htask tasks, ?_⟩
    rw [resolve_chain]
    by_cases htask : b.type = taskType
    · obtain ⟨e, he⟩ := checkLink_task hplain htask
      unfold link
      rw [he]
      exact .throw
    · refine g.ensures_link Silent silent_empty (fun _ _ => Silent.append) ?_ ?_ true
      · refine (ensures_quiet_emitted hplain hblank hline inputs htask tasks).mono ?_
        rintro f hf code rfl
        exact hf
      · intro follower hfollower
        obtain ⟨c, hc, rfl⟩ := Option.map_eq_some_iff.mp hfollower
        exact (next c hc tasks).2

/-! ## Top-level blocks -/

theorem ensures_silent_bodyOf (slot : String) (tasks : List String) :
    Generation.Ensures (fun pass => pass.tasks = tasks) Silent
      (g.bodyOf b slot ((b.input? slot).map g.resolve)) := by
  refine (g.ensures_bodyOf (fun _ => Silent) fun first hfirst => ?_).mono ?_
  · obtain ⟨c, -, rfl⟩ := Option.map_eq_some_iff.mp hfirst
    exact (still hplain hblank hline c tasks).2
  · rintro code (⟨-, rfl⟩ | ⟨first, lines, -, hlines, rfl⟩)
    · exact silent_empty
    · exact silent_indentLines hblank hline hlines

/-- The answers of the generator move the tasks as the emitter of a task
    expects. -/
theorem taskMoves_answer
    (htype : g.registry.get? b.type =
      some (Builtin.named ⟨Catalog.taskDefinition, Emitters.taskDefinition⟩ b.type))
    (query : Query) (pass : Pass) :
    taskMoves b query pass.tasks
      ((g.answer b (Dictionary.mapValues g.resolve b.inputs) query).run pass).1
      ((g.answer b (Dictionary.mapValues g.resolve b.inputs) query).run pass).2.tasks := by
  cases query with
  | value slot outer default => exact True.intro
  | body slot =>
    simp only [answer, get?_resolved]
    exact ensures_silent_bodyOf hplain hblank hline slot _ pass rfl
  | fieldText slot =>
    refine ⟨rfl, ?_⟩
    rintro t ht rfl
    exact fieldText_eq_text htype rfl ht
  | fieldNumber slot => rfl
  | recorded => exact ⟨rfl, rfl⟩
  | context operation =>
    cases operation with
    | reset => exact True.intro
    | finalize code => exact True.intro
    | _ => rfl
  | report event => rfl

/-- A task is registered under a free name, and its code is the function of that
    name. -/
theorem emitted_task (htask : b.type = taskType) {pass : Pass} {f : Fragment}
    (h : ((g.resolve b).emitted.run.run pass).1 = .ok f) :
    ((g.resolve b).emitted.run.run pass).2.tasks =
        pass.tasks ++ [TaskName.choose pass.tasks b.taskId] ∧
      ∃ body interval, Silent body ∧ f = .statement (Emitters.taskFunction
        (TaskName.choose pass.tasks b.taskId) g.indent body interval) := by
  rw [resolve_emitted] at h ⊢
  unfold emit at h ⊢
  rcases hplain b.type with ⟨-, hemitter⟩ | ⟨e, he, hname, htype, hemitter⟩
  · rw [hemitter] at h
    cases h
  · obtain rfl := builtin_task he (hname.trans htask)
    rw [hemitter] at h ⊢
    have hleads := leads_taskDefinition b g.indent
      (pass.report (.emitting b.id b.type)).tasks
    exact hleads.run (taskMoves_answer hplain hblank hline htype) f h

/-- A top-level block that is no task that takes part registers nothing and has no
    landmarks. -/
theorem ensures_silent_topLevel (htask : b.isTask = false) (tasks : List String) :
    Generation.Ensures (fun pass => pass.tasks = tasks) Silent (g.topLevel (g.resolve b)) := by
  unfold topLevel
  rw [resolve_block]
  refine Generation.Ensures.check.bind fun spec hspec => ?_
  have hnext : ∀ follower, b.next.map g.resolve = some follower →
      Generation.Ensures (fun pass => pass.tasks = tasks) Silent (follower.chain true) := by
    intro follower hfollower
    obtain ⟨c, -, rfl⟩ := Option.map_eq_some_iff.mp hfollower
    exact (still hplain hblank hline c tasks).2
  by_cases htype : b.type = taskType
  · -- a task that does not take part is only checked
    have henabled : b.enabled = false := by simpa [Block.isTask, htype] using htask
    rw [specOf_eq_ok, htype] at hspec
    have hvalue : spec.isValueBlock = false := by
      simp [BlockSpec.isValueBlock, (hplain.task_spec hspec).1]
    simp only [hvalue, Bool.false_eq_true, if_false]
    have hskip : (g.resolve b).chain false =
        g.link b (throw (unknownSlot b "")) (b.next.map g.resolve) false := by
      rw [resolve_chain, link_eq, link_eq, ownCode, ownCode, if_neg (by simp [henabled]),
        if_neg (by simp [henabled])]
    rw [hskip]
    exact g.ensures_link Silent silent_empty (fun _ _ => Silent.append) .throw hnext false
  · have hemitted := (still hplain hblank hline b tasks).1 htype
    split
    · split
      · refine hemitted.bind fun f hf => ?_
        cases f with
        | expression code order => exact .pure (Calm.silent hf)
        | statement code => exact .pure hf
      · exact .pure silent_empty
    · rw [resolve_chain]
      refine g.ensures_link Silent silent_empty (fun _ _ => Silent.append) ?_ hnext false
      refine hemitted.mono ?_
      rintro f hf code rfl
      exact hf

/-- What follows a block in a chain registers nothing and has no landmarks. -/
theorem ensures_silent_behind (next : Option Block) (tasks : List String) :
    Generation.Ensures (fun pass => pass.tasks = tasks) Silent
      (chainCode (next.map g.resolve) true) := by
  cases next with
  | none => exact .pure silent_empty
  | some follower => exact (still hplain hblank hline follower tasks).2

/-- A task that takes part registers itself. Its definition is the only landmark,
    also if other blocks follow. -/
theorem topLevel_task (htask : b.isTask = true) {pass : Pass} {code : String}
    (h : ((g.topLevel (g.resolve b)).run.run pass).1 = .ok code) :
    ((g.topLevel (g.resolve b)).run.run pass).2.tasks =
        pass.tasks ++ [TaskName.choose pass.tasks b.taskId] ∧
      landmarksIn code = [definitionLine (TaskName.choose pass.tasks b.taskId)] := by
  obtain ⟨htype, henabled⟩ : b.type = taskType ∧ b.enabled = true := by
    simpa [Block.isTask] using htask
  unfold topLevel at h ⊢
  rw [resolve_block] at h ⊢
  obtain ⟨spec, hspec, h, hafter⟩ := Generation.exists_of_run_bind_eq_ok h
  rw [hafter]
  simp only [Generation.run_check] at hspec h ⊢
  rw [specOf_eq_ok, htype] at hspec
  have hvalue : spec.isValueBlock = false := by
    simp [BlockSpec.isValueBlock, (hplain.task_spec hspec).1]
  simp only [hvalue, Bool.false_eq_true, if_false] at h ⊢
  rw [resolve_chain, link_eq, ownCode, if_pos henabled] at h ⊢
  obtain ⟨-, -, h, hafter⟩ := Generation.exists_of_run_bind_eq_ok h
  rw [hafter]
  simp only [Generation.run_check] at h ⊢
  obtain ⟨own, hown, h, hafter⟩ := Generation.exists_of_run_bind_eq_ok h
  rw [hafter]
  obtain ⟨f, hf, hown, hafter⟩ := Generation.exists_of_run_bind_eq_ok hown
  rw [hafter] at h ⊢
  obtain ⟨htasks, body, interval, hbody, hfragment⟩ :=
    emitted_task hplain hblank hline htype hf
  rw [hfragment, statementOf, Generation.run_check] at hown h ⊢
  have hown := Except.ok.inj hown
  obtain ⟨more, hmore, h, hafter⟩ := Generation.exists_of_run_bind_eq_ok h
  have hcode : own ++ more = code := Except.ok.inj h
  rw [hafter, ← hcode, ← hown]
  obtain ⟨hafter, hsilent⟩ := ensures_silent_behind hplain hblank hline b.next _ _ htasks
  have hmore := hsilent more hmore
  obtain ⟨hends, hmarks⟩ :=
    landmarksIn_taskFunction hblank hline hbody (not_mem_choose pass.tasks b) interval
  refine ⟨hafter, ?_⟩
  rw [landmarksIn_append hends, hmarks, landmarksIn_of_silent hmore, List.append_nil]

/-- The texts of a pass define the tasks that the pass registers, and have no other
    landmarks. -/
theorem defines_topLevels (w : Workspace) {pass : Pass} {chunks : List String}
    (h : ((g.topLevels w).run.run pass).1 = .ok chunks) :
    ((g.topLevels w).run.run pass).2.tasks = pass.tasks ++ TaskName.assign pass.tasks w.taskIds ∧
      chunks.flatMap landmarksIn = (TaskName.assign pass.tasks w.taskIds).map definitionLine := by
  obtain ⟨blocks⟩ := w
  unfold topLevels at h ⊢
  unfold Workspace.taskIds
  induction blocks generalizing pass chunks with
  | nil =>
    cases h
    exact ⟨(List.append_nil _).symm, rfl⟩
  | cons b rest ih =>
    rw [List.mapM_cons] at h ⊢
    obtain ⟨code, hcode, h, hafter⟩ := Generation.exists_of_run_bind_eq_ok h
    rw [hafter]
    obtain ⟨more, hmore, h, hafter⟩ := Generation.exists_of_run_bind_eq_ok h
    rw [hafter]
    cases h
    obtain ⟨htasks, hmarks⟩ := ih hmore
    rw [List.flatMap_cons, hmarks]
    show ((rest.mapM fun b => g.topLevel (g.resolve b)).run.run _).2.tasks = _ ∧ _
    rw [htasks]
    cases htask : b.isTask with
    | false =>
      obtain ⟨hsame, hsilent⟩ :=
        ensures_silent_topLevel hplain hblank hline htask pass.tasks pass rfl
      rw [landmarksIn_of_silent (hsilent code hcode), hsame]
      simp [htask]
    | true =>
      obtain ⟨hnew, hdefines⟩ := topLevel_task hplain hblank hline htask hcode
      rw [hnew, hdefines]
      simp [htask, TaskName.assign]

end Passes

end Generator

end PollScript
