import PollScript.Proofs.Journal
import PollScript.Proofs.NumberTokens

/-!
# Warnings about polls

A poll is warned of if it is awaited outside of every task, which the counter of the context
tells when the poll is emitted. Whatever was emitted before, this counter shows whether the
block at hand stands in the body of a task. So the warnings of a pass follow from the places
of the blocks: from the connections that lead to them.

Results:

* `Block.inTask_cons`: a place is in the body of a task because its first connection leads
  into one, or because of the rest of its path.
* `accounts`: what is reported for a block and for a chain follows from the places of the
  blocks.
* `warnings_generate`: the emissions and the warnings of a pass, successful or not.
-/

namespace PollScript

open Script

/-! ## Places in the bodies of tasks -/

namespace Block

/-- The block that a connection leads to. -/
def step? (b : Block) : Edge → Option Block
  | .input slot => b.input? slot
  | .next => b.next

/-- The block that a path leads to. -/
def follow? : Block → List Edge → Option Block
  | b, [] => some b
  | b, edge :: path => (b.step? edge).bind fun child => child.follow? path

/-- Somewhere on the way, the path leads into the body of a task that takes part. -/
def InTask (b : Block) (path : List Edge) : Prop :=
  ∃ front back task, path = front ++ .input "DO" :: back ∧ b.follow? front = some task ∧
    task.isTask = true

/-- Whether some connection of the path leads into the body of a task that takes part. -/
def entersTask : Block → List Edge → Bool
  | _, [] => false
  | b, edge :: path => b.opensTask edge || (b.step? edge).any fun child => child.entersTask path

theorem not_inTask_nil (b : Block) : ¬ b.InTask [] := by
  rintro ⟨front, back, task, hpath, -⟩
  exact List.append_ne_nil_of_right_ne_nil front (List.cons_ne_nil _ back) hpath.symm

/-- A place is in the body of a task because of its first connection or because of the rest of
    its path. -/
theorem inTask_cons {b : Block} {edge : Edge} {path : List Edge} :
    b.InTask (edge :: path) ↔
      b.opensTask edge = true ∨ ∃ child, b.step? edge = some child ∧ child.InTask path := by
  constructor
  · rintro ⟨front, back, task, hpath, hfollow, htask⟩
    cases front with
    | nil =>
      obtain ⟨rfl, rfl⟩ := List.cons.inj hpath
      obtain rfl : b = task := Option.some.inj hfollow
      exact .inl (by simp [opensTask, htask])
    | cons first front =>
      obtain ⟨rfl, rfl⟩ := List.cons.inj hpath
      obtain ⟨child, hstep, hfollow⟩ := Option.bind_eq_some_iff.mp hfollow
      exact .inr ⟨child, hstep, front, back, task, rfl, hfollow, htask⟩
  · rintro (hopens | ⟨child, hstep, front, back, task, rfl, hfollow, htask⟩)
    · obtain ⟨htask, rfl⟩ : b.isTask = true ∧ edge = .input "DO" := by
        simpa [opensTask] using hopens
      exact ⟨[], path, b, rfl, rfl, htask⟩
    · exact ⟨edge :: front, back, task, rfl, Option.bind_eq_some_iff.mpr ⟨child, hstep, hfollow⟩,
        htask⟩

theorem entersTask_iff (b : Block) (path : List Edge) :
    b.entersTask path = true ↔ b.InTask path := by
  induction path generalizing b with
  | nil => simp [entersTask, not_inTask_nil]
  | cons edge path ih => simp [entersTask, inTask_cons, Option.any_eq_true, ih]

instance (b : Block) (path : List Edge) : Decidable (b.InTask path) :=
  decidable_of_iff _ (entersTask_iff b path)

theorem decide_inTask (b : Block) (path : List Edge) :
    decide (b.InTask path) = b.entersTask path := by
  rw [Bool.eq_iff_iff, decide_eq_true_iff, entersTask_iff]

end Block

/-- The place below a top-level block is in the body of a task that takes part. -/
def Workspace.InTask (w : Workspace) (number : Nat) (path : List Edge) : Prop :=
  ∃ top, w.blocks[number]? = some top ∧ top.InTask path

instance (w : Workspace) (number : Nat) (path : List Edge) : Decidable (w.InTask number path) :=
  decidable_of_iff (w.blocks[number]?.any fun top => top.entersTask path)
    (by simp [Workspace.InTask, Option.any_eq_true, Block.entersTask_iff])

theorem Workspace.decide_inTask {w : Workspace} {number : Nat} {top : Block}
    (htop : w.blocks[number]? = some top) (path : List Edge) :
    decide (w.InTask number path) = top.entersTask path := by
  rw [← Block.decide_inTask, decide_eq_decide]
  simp [InTask, htop]

/-- A pass gets to a block by the path that leads to it. -/
theorem Registry.GetsTo.follow {r : Registry} {role : Role} {b c : Block} {path : List Edge}
    (h : r.GetsTo role b path c) : b.follow? path = some c := by
  induction h with
  | here => rfl
  | value _ _ _ plugged _ ih => exact Option.bind_eq_some_iff.mpr ⟨_, plugged, ih⟩
  | body _ _ _ plugged _ ih => exact Option.bind_eq_some_iff.mpr ⟨_, plugged, ih⟩
  | next follows _ ih => exact Option.bind_eq_some_iff.mpr ⟨_, follows, ih⟩

/-! ## Passes -/

namespace Generation

variable {α β : Type} {inTask : Bool} {parts front back : List (List Event)}

/-- In every pass in which a task is open or not, as said, the computation tells of the parts in
    their order, and of all of them if it succeeds. -/
def Tells (inTask : Bool) (parts : List (List Event)) (x : Generation α) : Prop :=
  ∀ pass : Pass, pass.journal.inTask = inTask →
    pass.journal.Continues parts (∃ a, (x.run.run pass).1 = .ok a) (x.run.run pass).2.journal

theorem Tells.pure {a : α} : Tells inTask [] (Pure.pure a : Generation α) :=
  fun _ _ => .refl

theorem Tells.throw {e : GenerateError} : Tells inTask parts (throw e : Generation α) :=
  fun _ _ => .none (not_exists_ok_of_error e)

theorem Tells.bind {x : Generation α} {f : α → Generation β} (hx : Tells inTask front x)
    (hf : ∀ a, Tells inTask back (f a)) : Tells inTask (front ++ back) (x >>= f) := by
  intro pass hpass
  have hfront := hx pass hpass
  rw [run_bind]
  cases hresult : (x.run.run pass).1 with
  | ok a => exact hfront.append ⟨a, hresult⟩ (hf a _ (hfront.inTask.trans hpass))
  | error e => exact hfront.stop (not_exists_ok_of_error e)

theorem cumulative_tells (inTask : Bool) : Cumulative fun _ => Tells inTask where
  pure _ := .pure
  throw _ := .throw
  bind hx hf := hx.bind hf

end Generation

namespace Registry

variable (r : Registry) {b child : Block} {edge : Edge}

/-- What is told of a block in its place below another one, which is in the body of a task or
    not. -/
def noticesAt (inTask : Bool) (b : Block) (p : Placed) : List Event :=
  p.block.notices (inTask || b.entersTask p.path)

/-- What is told of listed blocks. -/
def partsOf (inTask : Bool) (b : Block) (listed : List Placed) : List (List Event) :=
  listed.map (noticesAt inTask b)

/-- What is told of the value in a slot. -/
def valueParts (b : Block) (inTask : Bool) (slot : String) : List (List Event) :=
  (b.input? slot).elim [] fun child =>
    if child.enabled then partsOf inTask child (r.listBlock child).emission else []

/-- What is told of the statements in a slot. -/
def bodyParts (b : Block) (inTask : Bool) (slot : String) : List (List Event) :=
  (b.input? slot).elim [] fun first => partsOf inTask first (r.listBlock first).chain

/-- Below a connection, a block is told of as in a task if one is opened there. -/
theorem noticesAt_under (inTask : Bool) (hstep : b.step? edge = some child) (p : Placed) :
    noticesAt inTask b (p.under edge) = noticesAt (inTask || b.opensTask edge) child p := by
  simp [noticesAt, Placed.under, Block.entersTask, hstep, Bool.or_assoc]

theorem partsOf_inSlot (b : Block) (inTask : Bool) (slot : Slot) :
    partsOf inTask b (Listed.inSlot (Dictionary.mapValues r.listBlock b.inputs) slot) =
      slotParts (r.valueParts b) (r.bodyParts b) (inTask || b.opensTask (.input slot.name))
        slot := by
  obtain ⟨name, kind⟩ := slot
  have hstep : b.step? (.input name) = b.input? name := rfl
  unfold Listed.inSlot slotParts partsOf
  cases kind with
  | value check =>
    dsimp only
    rw [map_valueIn, valueParts]
    cases hinput : b.input? name with
    | none => rfl
    | some child =>
      simp only [Option.elim_some, noticesAt_under _ (hstep.trans hinput)]
      rfl
  | body =>
    dsimp only
    rw [map_bodyIn, bodyParts]
    cases hinput : b.input? name with
    | none => rfl
    | some first =>
      simp only [Option.elim_some, noticesAt_under _ (hstep.trans hinput)]
      rfl
  | _ => rfl

theorem partsOf_flatMap (inTask : Bool) (b : Block) {α : Type} (items : List α)
    (listed : α → List Placed) :
    partsOf inTask b (items.flatMap listed) =
      items.flatMap fun item => partsOf inTask b (listed item) :=
  List.map_flatMap

/-- A block is told of before what is in its slots. -/
theorem partsOf_emission {spec : BlockSpec} (htype : r.get? b.type = some spec) (inTask : Bool) :
    partsOf inTask b (r.listBlock b).emission =
      b.notices inTask :: spec.addressableSlots.flatMap fun slot =>
        slotParts (r.valueParts b) (r.bodyParts b) (inTask || b.opensTask (.input slot.name))
          slot := by
  have hown : noticesAt inTask b ⟨[], b⟩ = b.notices inTask :=
    congrArg b.notices (Bool.or_false inTask)
  rw [listBlock_emission, listEmission, htype]
  simp only [← partsOf_inSlot, ← partsOf_flatMap]
  rw [partsOf, List.map_cons, hown]
  rfl

/-- No task is opened on the way along a chain. -/
theorem partsOf_chain (b : Block) (inTask : Bool) :
    partsOf inTask b (r.listBlock b).chain =
      (if b.enabled then partsOf inTask b (r.listBlock b).emission else []) ++
        b.next.elim [] fun follower => partsOf inTask follower (r.listBlock follower).chain := by
  have hopens : b.opensTask .next = false := by simp [Block.opensTask]
  have hstep : b.step? .next = b.next := rfl
  unfold partsOf
  rw [map_chain]
  congr 1
  cases hnext : b.next with
  | none => rfl
  | some follower =>
    simp only [Option.elim_some, noticesAt_under _ (hstep.trans hnext), hopens, Bool.or_false]

end Registry

namespace Generator

variable {g : Generator} {b : Block}

/-- What a pass reports about an enabled block alone, and about the chain that a block begins,
    follows from the places of the listed blocks. -/
def Accounts (g : Generator) (b : Block) : Prop :=
  ∀ inTask,
    (b.enabled = true → Generation.Tells inTask
      (Registry.partsOf inTask b (g.registry.listBlock b).emission) (g.resolve b).emitted) ∧
    ∀ attached, Generation.Tells inTask
      (Registry.partsOf inTask b (g.registry.listBlock b).chain) ((g.resolve b).chain attached)

theorem tells_valueOf {slot default : String} {outer : Order} (inTask : Bool)
    (inputs : ∀ name child, b.input? name = some child → g.Accounts child) :
    Generation.Tells inTask (g.registry.valueParts b inTask slot)
      (g.valueOf b slot outer default ((b.input? slot).map g.resolve)) :=
  (Generation.cumulative_tells inTask).valueOf _ fun child hchild =>
    (inputs slot child hchild inTask).1

theorem tells_bodyOf {slot : String} (inTask : Bool)
    (inputs : ∀ name child, b.input? name = some child → g.Accounts child) :
    Generation.Tells inTask (g.registry.bodyParts b inTask slot)
      (g.bodyOf b slot ((b.input? slot).map g.resolve)) :=
  (Generation.cumulative_tells inTask).bodyOf _ fun first hfirst =>
    (inputs slot first hfirst inTask).2 true

/-- The answers of the generator move the journal by what is told of the blocks in the
    slots. -/
theorem journalMoves_answer
    (inputs : ∀ name child, b.input? name = some child → g.Accounts child) (query : Query)
    (pass : Pass) :
    journalMoves (g.registry.valueParts b) (g.registry.bodyParts b) query pass.journal
      ((g.answer b (Dictionary.mapValues g.resolve b.inputs) query).run pass).1
      ((g.answer b (Dictionary.mapValues g.resolve b.inputs) query).run pass).2.journal := by
  cases query with
  | value slot outer default =>
    simp only [answer, get?_resolved]
    exact tells_valueOf _ inputs pass rfl
  | body slot =>
    simp only [answer, get?_resolved]
    exact tells_bodyOf _ inputs pass rfl
  | fieldText slot => rfl
  | fieldNumber slot => rfl
  | recorded => exact ⟨rfl, rfl⟩
  | context operation => exact Pass.journal_perform pass operation
  | report event => exact Pass.journal_report pass event

theorem tells_emitted (hplain : g.Plain)
    (inputs : ∀ name child, b.input? name = some child → g.Accounts child)
    (enabled : b.enabled = true) (inTask : Bool) :
    Generation.Tells inTask (Registry.partsOf inTask b (g.registry.listBlock b).emission)
      (g.resolve b).emitted := by
  rw [resolve_emitted]
  unfold emit
  rcases hplain b.type with ⟨-, hemitter⟩ | ⟨e, he, hname, htype, hemitter⟩
  · rw [hemitter]
    exact .throw
  rw [hemitter, g.registry.partsOf_emission htype]
  rintro pass rfl
  have hrun := (recounts_builtins he hname enabled g.indent _ _ _).run
    (journalMoves_answer inputs) (s := pass.report (.emitting b.id b.type))
  have hnotices : (pass.report (.emitting b.id b.type)).journal.add
      (b.warnings (pass.report (.emitting b.id b.type)).journal.inTask) =
        pass.journal.add (b.notices pass.journal.inTask) := by
    rw [Pass.journal_report]
    exact Journal.add_add _ _ _
  rw [hnotices] at hrun
  exact .cons hrun

theorem tells_link {attached : Bool} (inTask : Bool)
    (emitted : b.enabled = true → Generation.Tells inTask
      (Registry.partsOf inTask b (g.registry.listBlock b).emission) (g.resolve b).emitted)
    (next : ∀ follower, b.next = some follower → g.Accounts follower) :
    Generation.Tells inTask (Registry.partsOf inTask b (g.registry.listBlock b).chain)
      (g.link b (g.resolve b).emitted (b.next.map g.resolve) attached) := by
  rw [Registry.partsOf_chain]
  exact (Generation.cumulative_tells inTask).link _ _ emitted
    fun follower hfollower => (next follower hfollower inTask).2 true

/-- Whatever was emitted before, what is reported for a block and for a chain follows from
    whether a task is open and from the places of the blocks. -/
theorem accounts (hplain : g.Plain) (b : Block) : g.Accounts b := by
  induction b using Block.tree_induction with
  | step b inputs next =>
    intro inTask
    have emitted := fun enabled => tells_emitted hplain inputs enabled inTask
    refine ⟨emitted, fun attached => ?_⟩
    rw [resolve_chain]
    exact tells_link inTask emitted next

theorem tells_topLevel (hplain : g.Plain) (b : Block) (inTask : Bool) :
    Generation.Tells inTask
      (Registry.partsOf inTask b (g.registry.listTop (g.registry.listBlock b)))
      (g.topLevel (g.resolve b)) := by
  obtain ⟨emitted, chain⟩ := accounts hplain b inTask
  rw [Registry.partsOf, Registry.map_listTop]
  exact (Generation.cumulative_tells inTask).topLevel emitted (chain false)

/-- What is told of the live blocks of a workspace. -/
def liveParts (g : Generator) (w : Workspace) : List (List Event) :=
  (g.registry.live w).map fun entry =>
    entry.2.block.notices (decide (w.InTask entry.1 entry.2.path))

theorem liveParts_eq (w : Workspace) :
    g.liveParts w = w.blocks.flatMap fun b =>
      Registry.partsOf false b (g.registry.listTop (g.registry.listBlock b)) := by
  calc g.liveParts w
      = w.blocks.zipIdx.flatMap fun top =>
          Registry.partsOf false top.1 (g.registry.listTop (g.registry.listBlock top.1)) := by
        unfold liveParts Registry.live
        rw [List.map_flatMap]
        refine List.flatMap_congr fun top htop => ?_
        rw [List.map_map]
        refine List.map_congr_left fun p _ => ?_
        have hplace := Workspace.decide_inTask (List.mem_zipIdx_iff_getElem?.mp htop) p.path
        simp only [Function.comp_apply, hplace, Registry.noticesAt, Bool.false_or]
    _ = (w.blocks.zipIdx.map (·.1)).flatMap fun b =>
          Registry.partsOf false b (g.registry.listTop (g.registry.listBlock b)) := by
        rw [List.flatMap_map]
    _ = _ := by rw [List.zipIdx_map_fst]

/-- A pass tells of live blocks in their order, and of all of them if it succeeds. -/
theorem tells_topLevels (hplain : g.Plain) (w : Workspace) :
    Generation.Tells false (g.liveParts w) (g.topLevels w) := by
  rw [liveParts_eq]
  exact (Generation.cumulative_tells false).mapM _ fun b _ => tells_topLevel hplain b false

/-- What a pass reports about blocks is what its top-level blocks are told to. -/
theorem notices_generateWith (g : Generator) (w : Workspace) (c : Context) :
    (g.generateWith w c).events.filter Event.isNotice =
      ((g.topLevels w).run.run ⟨c, []⟩).2.journal.notices := by
  unfold generateWith Generation.outcome
  dsimp only
  split
  · rfl
  · rw [List.filter_append]
    exact List.append_nil _

/-- Of every pass of the default generator, the emissions and the warnings about polls. The pass
    emits live blocks in their order, each place once and all of them if it succeeds. The
    emission of a poll is followed at once by a warning with the id of the poll, unless the
    place of the poll is in the body of a task that takes part, and there are no other
    warnings. -/
theorem warnings_generate {width : Nat} {g : Generator}
    (built : (Builder.default.indentWidth width).build = .ok g) (w : Workspace) :
    ∃ emitted, emitted <+: g.registry.live w ∧
      (∀ script, g.generate w = .ok script → emitted = g.registry.live w) ∧
      (emitted.map fun entry => (entry.1, entry.2.path)).Nodup ∧
      (∀ entry ∈ emitted, ∃ top, w.blocks[entry.1]? = some top ∧
        top.follow? entry.2.path = some entry.2.block) ∧
      (g.generateWith w (Context.withIndent g.indent)).events.filter Event.isNotice =
        emitted.flatMap fun entry =>
          .emitting entry.2.block.id entry.2.block.type ::
            if entry.2.block.type = pollType ∧ ¬ w.InTask entry.1 entry.2.path then
              [.pullOutsideTask entry.2.block.id]
            else [] := by
  obtain ⟨hplain, -⟩ := Builder.plain_of_build built
  obtain ⟨told, htold, hjournal, hall⟩ :=
    tells_topLevels hplain w ⟨Context.withIndent g.indent, []⟩ rfl
  obtain ⟨emitted, hemitted, rfl⟩ : ∃ emitted, emitted <+: g.registry.live w ∧
      told = emitted.map fun entry =>
        entry.2.block.notices (decide (w.InTask entry.1 entry.2.path)) := by
    refine ⟨(g.registry.live w).take told.length, List.take_prefix _ _, ?_⟩
    rw [List.map_take]
    exact List.prefix_iff_eq_take.mp htold
  refine ⟨emitted, hemitted, fun script h => ?_, ?_, fun entry hentry => ?_, ?_⟩
  · obtain ⟨chunks, pass, hrun, -⟩ := exists_ledger_of_generate hplain h
    have hparts := hall ⟨chunks, congrArg Prod.fst hrun⟩
    refine hemitted.eq_of_length ?_
    simpa [liveParts] using congrArg List.length hparts
  · exact (g.registry.nodup_live hplain.addressed w).sublist (hemitted.sublist.map _)
  · obtain ⟨number, p⟩ := entry
    obtain ⟨top, spec, htop, -, hgets⟩ :=
      (g.registry.mem_live_iff w number p).mp (hemitted.subset hentry)
    exact ⟨top, htop, hgets.follow⟩
  · rw [notices_generateWith, hjournal]
    simp [Journal.add, Pass.journal, List.flatMap_def, Block.notices, Block.warnings]

/-- Polls in a task, behind it and in another chain, before a block of an unknown type. -/
def scatteredPolls : Workspace :=
  let poll (id : String) : Block := ⟨id, pollType, true, [], [], none⟩
  let assign (id : String) (value : Block) : Block :=
    ⟨id, "variables_set", true, [], [("VALUE", value)], none⟩
  ⟨[⟨"t", taskType, true, [], [("DO", assign "a" (poll "p"))], some (assign "b" (poll "q"))⟩,
    assign "c" (poll "r"), ⟨"u", "unknown", true, [], [], none⟩]⟩

/-- The pass fails at last, and the poll in the task is the only one without a warning. -/
theorem warnings_scatteredPolls :
    (fourBlanks.generate scatteredPolls).toOption = none ∧ ∃ emitted,
      emitted <+: fourBlanks.registry.live scatteredPolls ∧
      (emitted.flatMap fun entry =>
        Event.emitting entry.2.block.id entry.2.block.type ::
          if entry.2.block.type = pollType ∧ ¬ scatteredPolls.InTask entry.1 entry.2.path then
            [.pullOutsideTask entry.2.block.id]
          else []) =
        [.emitting "t" taskType, .emitting "a" "variables_set", .emitting "p" pollType,
          .emitting "b" "variables_set", .emitting "q" pollType, .pullOutsideTask "q",
          .emitting "c" "variables_set", .emitting "r" pollType, .pullOutsideTask "r"] := by
  obtain ⟨emitted, hprefix, -, -, -, hevents⟩ :=
    warnings_generate (Builder.build_default 4) scatteredPolls
  have hreported : (fourBlanks.generateWith scatteredPolls
      (Context.withIndent fourBlanks.indent)).events.filter Event.isNotice =
        [.emitting "t" taskType, .emitting "a" "variables_set", .emitting "p" pollType,
          .emitting "b" "variables_set", .emitting "q" pollType, .pullOutsideTask "q",
          .emitting "c" "variables_set", .emitting "r" pollType, .pullOutsideTask "r"] := by
    decide +kernel
  exact ⟨by decide +kernel, emitted, hprefix, hevents.symm.trans hreported⟩

end Generator

end PollScript
