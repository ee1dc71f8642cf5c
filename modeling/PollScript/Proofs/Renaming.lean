import Mathlib.Order.Bounds.Defs
import PollScript.Proofs.NumberTokens
import PollScript.Proofs.TaskBodies

/-!
# The search for the name of a task

A task tries the name of its id, and as long as the name at hand is taken, it goes on to the
id with the next number behind it. No two of the names that it tries are the same, so each
round uses up one of the names that are taken, and the search ends after no more rounds than
there are such names. What it ends with is the first of its names that is free.

The task is registered under this name before its body is emitted. It is reported as renamed
if the search went on for at least one round.

Results:

* `Search.ends_iff`: which searches end after how many rounds, and with what.
* `Search.rounds_le`: a search ends after at most as many rounds as there are names taken.
* `Search.two_lt_next_iff`: whether the number has moved on tells whether the task is renamed.
* `Search.ends_choose`: the chosen name is the one that the search ends with.
* `Generator.outcome_task`: the emission of a task, in terms of the emission of its body.
* `Generator.emitBlock_leastFree`: the search of a task, its name and what is reported of it.
-/

namespace PollScript

open Script

namespace Script.TaskName

/-! ## The search -/

/-- How far the search for a name has got: the name at hand, and the number to put behind the id
    if that name is taken. The number is at most two greater than the count of the names that are
    taken (`next_le`), so one of 32 bits with a sign does not run over before there are
    `2 ^ 31 - 2` of them. -/
structure Search where
  name : String
  next : Nat
deriving DecidableEq, Repr

namespace Search

/-- The search begins with the name of the id itself, and with the number two. -/
def start (id : String) : Search where
  name := plain id
  next := 2

/-- A round of the search, unless the name at hand is free. -/
def round? (taken : List String) (id : String) (s : Search) : Option Search :=
  if s.name ∈ taken then some ⟨numbered id s.next, s.next + 1⟩ else none

/-- The search ends after so many rounds. -/
inductive Ends (taken : List String) (id : String) : Nat → Search → Search → Prop
  | done {s : Search} (free : s.round? taken id = none) : Ends taken id 0 s s
  | round {s t last : Search} {rounds : Nat} (one : s.round? taken id = some t)
      (rest : Ends taken id rounds t last) : Ends taken id (rounds + 1) s last

/-- The names that are tried, in this order. -/
def candidate (id : String) : Nat → String
  | 0 => plain id
  | k + 1 => numbered id (k + 2)

/-- The search before its round `k`. -/
def before (id : String) (k : Nat) : Search where
  name := candidate id k
  next := k + 2

variable {taken : List String} {id : String}

theorem plain_ne_numbered (id : String) (n : Nat) : plain id ≠ numbered id n := by
  intro h
  have hchars := congrArg (fun s => s.toList.length) h
  simp [plain, numbered] at hchars

theorem candidate_injective {j k : Nat} (h : candidate id j = candidate id k) : j = k := by
  cases j with
  | zero =>
    cases k with
    | zero => rfl
    | succ k => exact absurd h (plain_ne_numbered id _)
  | succ j =>
    cases k with
    | zero => exact absurd h.symm (plain_ne_numbered id _)
    | succ k =>
      have hnumbers := numbered_injective h
      omega

/-- A round goes from a name that is taken to the next one. -/
theorem round?_before (taken : List String) (id : String) (k : Nat) :
    (before id k).round? taken id =
      if candidate id k ∈ taken then some (before id (k + 1)) else none :=
  rfl

/-- From its round `k` on, the search ends at the first name that is free. -/
theorem ends_before_iff {k rounds : Nat} {last : Search} :
    Ends taken id rounds (before id k) last ↔
      last = before id (k + rounds) ∧ candidate id (k + rounds) ∉ taken ∧
        ∀ j, k ≤ j → j < k + rounds → candidate id j ∈ taken := by
  induction rounds generalizing k with
  | zero =>
    constructor
    · intro h
      cases h with
      | done free =>
        refine ⟨rfl, fun hmem => ?_, fun j hj hlt => by omega⟩
        have hround : (before id k).round? taken id = some (before id (k + 1)) := by
          rw [round?_before]
          exact if_pos hmem
        rw [hround] at free
        cases free
    · rintro ⟨rfl, hfree, -⟩
      refine .done ?_
      rw [round?_before]
      exact if_neg hfree
  | succ rounds ih =>
    have hsum : k + 1 + rounds = k + (rounds + 1) := by omega
    constructor
    · intro h
      cases h with
      | round one rest =>
        rw [round?_before] at one
        split at one
        · next hmem =>
          cases one
          obtain ⟨hlast, hfree, hall⟩ := ih.mp rest
          rw [hsum] at hlast hfree hall
          refine ⟨hlast, hfree, fun j hj hlt => ?_⟩
          rcases Nat.eq_or_lt_of_le hj with rfl | hj
          · exact hmem
          · exact hall j hj hlt
        · cases one
    · rintro ⟨hlast, hfree, hall⟩
      refine .round (t := before id (k + 1)) ?_ (ih.mpr ?_)
      · rw [round?_before, if_pos (hall k (Nat.le_refl k) (by omega))]
      · rw [hsum]
        exact ⟨hlast, hfree, fun j hj hlt => hall j (by omega) hlt⟩

/-- The search ends at the first name that is free. -/
theorem ends_iff {rounds : Nat} {last : Search} :
    Ends taken id rounds (start id) last ↔
      last = before id rounds ∧ candidate id rounds ∉ taken ∧
        ∀ j < rounds, candidate id j ∈ taken := by
  have h : Ends taken id rounds (before id 0) last ↔ _ := ends_before_iff
  simp only [Nat.zero_add, Nat.zero_le, true_implies] at h
  exact h

/-- Each round uses up a name that is taken, and none is used twice. -/
theorem rounds_le {rounds : Nat} {last : Search} (h : Ends taken id rounds (start id) last) :
    rounds ≤ taken.length := by
  obtain ⟨-, -, hall⟩ := ends_iff.mp h
  have hnodup : ((List.range rounds).map (candidate id)).Nodup :=
    List.Nodup.map (fun _ _ => candidate_injective) List.nodup_range
  have hsubset : (List.range rounds).map (candidate id) ⊆ taken := by
    intro name hname
    obtain ⟨j, hj, rfl⟩ := List.mem_map.mp hname
    exact hall j (List.mem_range.mp hj)
  simpa using (hnodup.subperm hsubset).length_le

theorem next_le {rounds : Nat} {last : Search} (h : Ends taken id rounds (start id) last) :
    last.next ≤ taken.length + 2 := by
  obtain ⟨rfl, -, -⟩ := ends_iff.mp h
  exact Nat.add_le_add_right (rounds_le h) 2

/-- The number has moved on from two exactly if the name of the id itself was taken. -/
theorem two_lt_next_iff {rounds : Nat} {last : Search} (h : Ends taken id rounds (start id) last) :
    2 < last.next ↔ plain id ∈ taken := by
  obtain ⟨rfl, hfree, hall⟩ := ends_iff.mp h
  show 2 < rounds + 2 ↔ _
  rw [Nat.lt_add_left_iff_pos]
  constructor
  · exact hall 0
  · intro hplain
    refine Nat.pos_of_ne_zero ?_
    rintro rfl
    exact hfree hplain

/-- The chosen name is the one that the search ends with. -/
theorem ends_choose (taken : List String) (id : String) :
    ∃ rounds, Ends taken id rounds (start id) ⟨choose taken id, rounds + 2⟩ := by
  rcases choose_cases taken id with ⟨heq, hfree⟩ | ⟨n, hn, heq, hfree, hplain, hleast⟩
  · exact ⟨0, ends_iff.mpr ⟨by rw [heq]; rfl, hfree, fun j hj => by omega⟩⟩
  · obtain ⟨k, rfl⟩ := Nat.exists_eq_add_of_le' hn
    refine ⟨k + 1, ends_iff.mpr ⟨by rw [heq]; rfl, hfree, fun j hj => ?_⟩⟩
    cases j with
    | zero => exact hplain
    | succ j => exact hleast (j + 2) (by omega) (by omega)

end Search

/-- If the name of the id itself is taken, the chosen name has the least number from two on that
    gives a free name. -/
theorem choose_of_taken {taken : List String} {id : String} (h : plain id ∈ taken) :
    ∃ k, IsLeast {k | 2 ≤ k ∧ numbered id k ∉ taken} k ∧ choose taken id = numbered id k := by
  rcases choose_cases taken id with ⟨-, hfree⟩ | ⟨k, hk, heq, hfree, -, hleast⟩
  · exact absurd h hfree
  · refine ⟨k, ⟨⟨hk, hfree⟩, ?_⟩, heq⟩
    rintro m ⟨hm, hnotMem⟩
    by_contra hlt
    exact hnotMem (hleast m hm (Nat.not_le.mp hlt))

end Script.TaskName

/-! ## Tasks -/

namespace Generator

variable {g : Generator} {b : Block}

/-- What is reported of a task that is not named after its id alone. -/
def renamed (b : Block) (taken : List String) (id name : String) : List Event :=
  if TaskName.plain id ∈ taken then [.taskRenamed b.id name] else []

/-- The function of a task around what came of its body, and the pass after the body with the
    task closed. -/
def enclosed (indent name : String) (interval : Float) (body : Except GenerateError String × Pass) :
    Except GenerateError Fragment × Pass :=
  (body.1.map fun code => .statement (Emitters.taskFunction name indent code interval),
    ⟨body.2.context.leaveTask, body.2.events⟩)

/-- From where its name is chosen, a task is registered and opened, and its body is emitted.
    Whatever comes of that, the task is closed afterwards. -/
theorem leads_enclosed (name : String) (interval : Float) {start opened : Pass}
    (hcontext : (start.context.registerTask name).enterTask = opened.context)
    (hevents : start.events = opened.events) :
    Program.Leads (g.answers b)
      (fun result after => (result, after) = enclosed g.indent name interval
        ((g.bodyOf b "DO" (Dictionary.get? (Dictionary.mapValues g.resolve b.inputs) "DO")).run.run
          opened))
      (ExceptT.run do
        Emit.perform (.registerTask name)
        Emit.perform .enterTask
        let body ← Emit.ask (.body "DO")
        Emit.perform .leaveTask
        return Fragment.statement
          (Emitters.taskFunction name g.indent (← Emit.check body) interval))
      start := by
  obtain rfl : ⟨(start.context.registerTask name).enterTask, start.events⟩ = opened := by
    rw [hcontext, hevents]
  rintro - _ ⟨-, rfl⟩
  rintro - _ ⟨-, rfl⟩
  rintro body inside ⟨hbody, hinside⟩
  rintro - _ ⟨-, rfl⟩
  have hrun : (body, inside) = (g.bodyOf b "DO"
      (Dictionary.get? (Dictionary.mapValues g.resolve b.inputs) "DO")).run.run
        ⟨(start.context.registerTask name).enterTask, start.events⟩ :=
    Prod.ext hbody hinside
  rw [← hrun]
  cases body with
  | ok code => rfl
  | error e => rfl

/-- A task that has its fields is named, and it is reported as renamed if it is, before its body
    is emitted. -/
theorem leads_named {id : String} {interval : Float}
    (hid : g.fieldText b "TASK_ID" = .ok id)
    (hinterval : g.fieldNumber b "INTERVAL" = .ok interval) (pass : Pass) :
    (Emitters.taskDefinition b g.indent).run.Leads (g.answers b)
      (fun result after =>
        let name := TaskName.choose pass.context.tasks (nameFragment id)
        (result, after) = enclosed g.indent name interval
          ((g.bodyOf b "DO"
              (Dictionary.get? (Dictionary.mapValues g.resolve b.inputs) "DO")).run.run
            ⟨pass.context.openTask name,
              pass.events ++ renamed b pass.context.tasks (nameFragment id) name⟩)) pass := by
  rintro - _ ⟨-, rfl⟩
  rintro - _ ⟨-, rfl⟩
  rintro answer _ ⟨hanswer, rfl⟩
  obtain rfl : answer = .ok id := hanswer.trans hid
  rintro answer _ ⟨hanswer, rfl⟩
  obtain rfl : answer = .ok interval := hanswer.trans hinterval
  rintro recorded _ ⟨hrecorded, rfl⟩
  have htasks : recorded.tasks = pass.context.tasks := congrArg Context.Recorded.tasks hrecorded
  dsimp only [Program.bind, Function.comp_apply, ExceptT.bindCont]
  rw [htasks]
  split
  · next htaken =>
    rintro - _ ⟨-, rfl⟩
    refine leads_enclosed _ interval rfl ?_
    rw [renamed, if_pos (List.contains_iff_mem.mp htaken)]
    rfl
  · next hfree =>
    refine leads_enclosed _ interval rfl ?_
    rw [renamed, if_neg fun hmem => hfree (List.contains_iff_mem.mpr hmem), List.append_nil]
    rfl

/-- A body adds to what was reported. -/
theorem addsToReport_bodyOf (g : Generator) (b : Block) (slot : String) :
    Generation.AddsToReport (g.bodyOf b slot ((b.input? slot).map g.resolve)).run :=
  Generation.cumulative_addsToReport.bodyOf (fun _ => []) fun first _ =>
    (g.addsToReport first).2 true

/-- The emission of a task that has its fields, in terms of the emission of its body. -/
theorem outcome_task {id : String} {interval : Float}
    (emitter : Dictionary.get? g.emitters b.type = some Emitters.taskDefinition)
    (hid : g.fieldText b "TASK_ID" = .ok id)
    (hinterval : g.fieldNumber b "INTERVAL" = .ok interval) (c : Context) :
    let name := TaskName.choose c.tasks (nameFragment id)
    let body := g.bodyCode b "DO" (c.openTask name)
    g.emitBlock b c =
      { result := body.result.map fun code =>
          .statement (Emitters.taskFunction name g.indent code interval)
        context := body.context.leaveTask
        events := .emitting b.id b.type ::
          (renamed b c.tasks (nameFragment id) name ++ body.events) } := by
  intro name body
  have hrun := run_of_leads_answers
    (leads_named hid hinterval ((Pass.mk c []).report (.emitting b.id b.type)))
  dsimp only at hrun
  rw [get?_resolved, addsToReport_bodyOf g b "DO"] at hrun
  have hemitted : (g.resolve b).emitted.run.run ⟨c, []⟩ =
      enclosed g.indent name interval (body.result, ⟨body.context, .emitting b.id b.type ::
        (renamed b c.tasks (nameFragment id) name ++ body.events)⟩) := by
    rw [resolve_emitted, emit, emitter]
    exact hrun
  unfold emitBlock Generation.outcome
  rw [hemitted]
  rfl

/-- Whatever names are taken, the search for the name of a task ends after no more rounds than
    there are such names, and with a name that is free. It is the name of the id itself or, if
    that is taken, the one with the least number from two on that gives a free name. The number
    at hand is then two greater than the rounds that there were. A task registers itself under
    this name, and is reported as renamed before its body is emitted if the name of its id is
    taken, and only then. -/
theorem emitBlock_leastFree (taken : List String) (text : String) :
    let id := nameFragment text
    ∃ rounds name,
      TaskName.Search.Ends taken id rounds (.start id) ⟨name, rounds + 2⟩ ∧
      rounds ≤ taken.length ∧ name ∉ taken ∧
      ((TaskName.plain id ∉ taken ∧ name = TaskName.plain id) ∨
        (TaskName.plain id ∈ taken ∧
          ∃ k, IsLeast {k | 2 ≤ k ∧ TaskName.numbered id k ∉ taken} k ∧
            name = TaskName.numbered id k)) ∧
      ∀ (g : Generator) (b : Block) (c : Context) (interval : Float),
        Dictionary.get? g.emitters b.type = some Emitters.taskDefinition →
        g.fieldText b "TASK_ID" = .ok text → g.fieldNumber b "INTERVAL" = .ok interval →
        c.tasks = taken →
        (c.openTask name).tasks = taken ++ [name] ∧
          (g.emitBlock b c).events = .emitting b.id b.type ::
            ((if TaskName.plain id ∈ taken then [.taskRenamed b.id name] else []) ++
              (g.bodyCode b "DO" (c.openTask name)).events) := by
  intro id
  obtain ⟨rounds, hends⟩ := TaskName.Search.ends_choose taken id
  refine ⟨rounds, TaskName.choose taken id, hends, TaskName.Search.rounds_le hends,
    TaskName.choose_notMem taken id, ?_, ?_⟩
  · by_cases htaken : TaskName.plain id ∈ taken
    · exact .inr ⟨htaken, TaskName.choose_of_taken htaken⟩
    · have hfree : taken.contains (TaskName.plain id) = false := by simpa using htaken
      exact .inl ⟨htaken, TaskName.choose_of_free hfree⟩
  · rintro g b c interval emitter hid hinterval rfl
    refine ⟨rfl, ?_⟩
    rw [outcome_task emitter hid hinterval]
    rfl

/-- A context in which two tasks are registered. -/
def twoTasks : Context :=
  { Context.withIndent "    " with tasks := ["task_01_2_loop", "task_01_loop"] }

/-- A task whose name and the next one are taken is named with the number three. -/
theorem emitBlock_leastFree_third :
    (fourBlanks.emitBlock (intervalTask 5) twoTasks).events =
      [.emitting "t" "modbus_task_definition", .taskRenamed "t" "task_01_3_loop"] := by
  obtain ⟨rounds, name, -, -, hfree, hname, hemits⟩ :=
    emitBlock_leastFree ["task_01_2_loop", "task_01_loop"] "01"
  obtain ⟨-, hevents⟩ := hemits fourBlanks (intervalTask 5) twoTasks 5 rfl (by decide +kernel)
    (by decide +kernel) rfl
  obtain rfl : name = "task_01_3_loop" := by
    rcases hname with ⟨hnot, -⟩ | ⟨-, k, ⟨⟨hk, hfree⟩, hleast⟩, rfl⟩
    · exact absurd (by decide) hnot
    · have hthree : k ≤ 3 := hleast ⟨by decide, by decide⟩
      have htwo : k ≠ 2 := by
        rintro rfl
        exact hfree (by decide)
      obtain rfl : k = 3 := by omega
      rfl
  rw [hevents]
  rfl

end Generator

end PollScript
