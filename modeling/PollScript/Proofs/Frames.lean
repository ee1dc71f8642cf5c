import PollScript.Proofs.Composition
import PollScript.Proofs.Ledger

/-!
# What an emission leaves of its context

An emission may request imports and helper definitions and register tasks. It takes
nothing back, and it closes every task body that it opens, also if the body has an error.
So the context afterwards is the one before with more behind each of its lists, and as
deep in tasks as it was.

The emitter of a task is the only one that opens a body. In between the context is one
task deeper, and the code of the body is asked for from there.

Results:

* `Context.Extends.leaveTask`: a body that is opened for a task and closed again.
* `appends_builtins`: the emitter of every built-in type extends its context, if its
  answers do.
* `extends_emission`: over the default catalog, every emission of a block and of what is
  in its slots extends its context, whether it succeeds or fails.
-/

namespace PollScript

open Script

/-! ## Contexts -/

namespace Script.Context

/-- The later context holds what the earlier one held, with more behind it, and is as deep
    in tasks. -/
structure Extends (earlier later : Context) : Prop where
  imports : earlier.imports <+: later.imports
  helpers : earlier.helpers <+: later.helpers
  tasks : earlier.tasks <+: later.tasks
  taskDepth : later.taskDepth = earlier.taskDepth
  indent : later.indent = earlier.indent

variable {c d e : Context}

theorem Extends.refl (c : Context) : c.Extends c :=
  ⟨List.prefix_refl _, List.prefix_refl _, List.prefix_refl _, rfl, rfl⟩

theorem Extends.trans (h : c.Extends d) (h' : d.Extends e) : c.Extends e :=
  ⟨h.imports.trans h'.imports, h.helpers.trans h'.helpers, h.tasks.trans h'.tasks,
    h'.taskDepth.trans h.taskDepth, h'.indent.trans h.indent⟩

theorem prefix_request (key text : String) (entries : List (String × String)) :
    entries <+: (request key text entries).2 := by
  unfold request
  split
  · exact List.prefix_refl _
  · exact List.prefix_append _ _

theorem extends_requireImport (key line : String) (c : Context) :
    c.Extends (c.requireImport key line).2 :=
  ⟨prefix_request _ _ _, List.prefix_refl _, List.prefix_refl _, rfl, rfl⟩

theorem extends_provideHelper (key code : String) (c : Context) :
    c.Extends (c.provideHelper key code).2 :=
  ⟨List.prefix_refl _, prefix_request _ _ _, List.prefix_refl _, rfl, rfl⟩

/-- A task is registered, its body is opened, and after what happens in the body it is
    closed again. -/
theorem Extends.leaveTask {name : String} (h : (c.registerTask name).enterTask.Extends d) :
    c.Extends d.leaveTask := by
  have hdepth : d.taskDepth = c.taskDepth + 1 := h.taskDepth
  refine ⟨h.imports, h.helpers, (List.prefix_append _ _).trans h.tasks, ?_, h.indent⟩
  show d.taskDepth - 1 = c.taskDepth
  omega

end Script.Context

/-! ## Emitters -/

/-- How the answers to questions move the context. Code for a slot comes from emissions,
    which extend the context, and an operation does what it does. -/
def contextMoves : (query : Query) → Context → query.Answer → Context → Prop
  | .value .., c, _, c' | .body _, c, _, c' => c.Extends c'
  | .context operation, c, _, c' => c' = (c.apply operation).2
  | .fieldText _, c, _, c' | .fieldNumber _, c, _, c' | .recorded, c, _, c'
  | .report _, c, _, c' => c' = c

namespace Script.Emit

variable {α β : Type}

/-- From every context, the emitter leads to one that extends it. -/
def Appends (x : Emit α) : Prop :=
  ∀ c, x.run.Leads contextMoves (fun _ d => c.Extends d) c

theorem Appends.pure {a : α} : (Pure.pure a : Emit α).Appends :=
  fun c => .refl c

theorem Appends.throw {e : GenerateError} : (throw e : Emit α).Appends :=
  fun c => .refl c

theorem Appends.bind {x : Emit α} {f : α → Emit β} (hx : x.Appends) (hf : ∀ a, (f a).Appends) :
    (x >>= f).Appends := by
  intro c
  refine (hx c).bind fun result d hd => ?_
  cases result with
  | ok a => exact (hf a d).mono fun _ _ h => hd.trans h
  | error e => exact hd

theorem Appends.check {result : Except GenerateError α} : (check result).Appends := by
  cases result with
  | ok a => exact .pure
  | error e => exact .throw

theorem Appends.value {slot default : String} {outer : Order} :
    (value slot outer default).Appends :=
  .bind (fun _ _ _ moved => moved) fun _ => .check

theorem Appends.fieldText {slot : String} : (fieldText slot).Appends :=
  .bind (fun c _ _ moved => moved ▸ .refl c) fun _ => .check

theorem Appends.fieldNumber {slot : String} : (fieldNumber slot).Appends :=
  .bind (fun c _ _ moved => moved ▸ .refl c) fun _ => .check

theorem Appends.recorded : recorded.Appends :=
  fun c _ _ moved => moved ▸ .refl c

theorem Appends.report {event : Event} : (report event).Appends :=
  fun c _ _ moved => moved ▸ .refl c

theorem Appends.requireImport {key line : String} : (requireImport key line).Appends :=
  fun c _ _ moved => moved ▸ c.extends_requireImport key line

theorem Appends.provideHelper {key code : String} : (provideHelper key code).Appends :=
  fun c _ _ moved => moved ▸ c.extends_provideHelper key code

theorem compositional_appends : Compositional fun _ x => x.Appends where
  pure _ := .pure
  bind := .bind
  value := .value
  fieldText := .fieldText
  fieldNumber := .fieldNumber
  requireImport := .requireImport
  provideHelper := .provideHelper

end Script.Emit

namespace Emitters

open Script.Emit

variable (b : Block) (indent : String)

theorem appends_pullData : (pullData b indent).Appends := by
  refine .bind compositional_appends.requireFrom fun _ => ?_
  refine .bind .recorded fun recorded => ?_
  dsimp only
  split
  · exact .bind .report fun _ => .bind .value fun config => .pure
  · exact .bind .value fun config => .pure

/-- The body is closed before its error is passed on. -/
theorem appends_taskDefinition : (taskDefinition b indent).Appends := by
  refine .bind .requireImport fun _ => ?_
  refine .bind .requireImport fun _ => ?_
  refine .bind .fieldText fun text => ?_
  refine .bind .fieldNumber fun interval => ?_
  refine .bind .recorded fun recorded => ?_
  have rest : ∀ name, Appends (do
      perform (.registerTask name)
      perform .enterTask
      let body ← ask (.body "DO")
      perform .leaveTask
      return Fragment.statement (taskFunction name indent (← check body) interval)) := by
    rintro name c - _ rfl
    rintro - _ rfl
    rintro body d inside
    rintro - _ rfl
    have closed : c.Extends d.leaveTask := Context.Extends.leaveTask inside
    cases body with
    | ok code => exact closed
    | error e => exact closed
  dsimp only
  split
  · exact .bind .report fun _ => rest _
  · exact rest _

end Emitters

/-- The emitter of every built-in type extends its context, if its answers do. -/
theorem appends_builtins {e : Builtin} (h : e ∈ builtins) (b : Block) (indent : String) :
    (e.emitter b indent).Appends := by
  by_cases hpoll : e.spec.type = "modbus_pull_data"
  · obtain rfl : e = ⟨Catalog.pullData, Emitters.pullData⟩ :=
      builtin_eq_of_type h (by simp [builtins]) hpoll
    exact Emitters.appends_pullData b indent
  by_cases htask : e.spec.type = "modbus_task_definition"
  · obtain rfl : e = ⟨Catalog.taskDefinition, Emitters.taskDefinition⟩ :=
      builtin_eq_of_type h (by simp [builtins]) htask
    exact Emitters.appends_taskDefinition b indent
  exact composed_builtins Emit.compositional_appends h hpoll htask b indent

/-! ## Emissions -/

namespace Generator

variable {g : Generator} {b : Block}

/-- The computation leaves a context that extends every one that its own context
    extends. -/
def Extending {α : Type} (x : Generation α) : Prop :=
  ∀ c : Context, Generation.Ensures (fun pass => c.Extends pass.context) (fun _ => True) x

theorem Extending.run {α : Type} {x : Generation α} (h : Extending x) (pass : Pass) :
    pass.context.Extends (x.run.run pass).2.context :=
  (h pass.context pass (.refl _)).1

theorem Extending.of_run {α : Type} {x : Generation α}
    (h : ∀ pass : Pass, pass.context.Extends (x.run.run pass).2.context) : Extending x :=
  fun _ pass hpass => ⟨hpass.trans (h pass), fun _ _ => trivial⟩

theorem extending_valueOf {slot default : String} {outer : Order}
    (inputs : ∀ name child, b.input? name = some child → Extending (g.resolve child).emitted) :
    Extending (g.valueOf b slot outer default ((b.input? slot).map g.resolve)) := by
  intro c
  refine (g.ensures_valueOf (fun _ _ => True) fun supplier hsupplier => ?_).mono fun _ _ => trivial
  obtain ⟨child, hchild, rfl⟩ := Option.map_eq_some_iff.mp (g.supplier_eq_some hsupplier).1
  exact inputs slot child hchild c

theorem extending_bodyOf {slot : String}
    (inputs : ∀ name child, b.input? name = some child →
      Extending ((g.resolve child).chain true)) :
    Extending (g.bodyOf b slot ((b.input? slot).map g.resolve)) := by
  intro c
  refine (g.ensures_bodyOf (fun _ _ => True) fun first hfirst => ?_).mono fun _ _ => trivial
  obtain ⟨child, hchild, rfl⟩ := Option.map_eq_some_iff.mp hfirst
  exact inputs slot child hchild c

/-- The answers of the generator move the context as emitters expect. -/
theorem contextMoves_answer
    (inputs : ∀ name child, b.input? name = some child →
      Extending (g.resolve child).emitted ∧ Extending ((g.resolve child).chain true))
    (query : Query) (pass : Pass) :
    contextMoves query pass.context
      ((g.answer b (Dictionary.mapValues g.resolve b.inputs) query).run pass).1
      ((g.answer b (Dictionary.mapValues g.resolve b.inputs) query).run pass).2.context := by
  cases query with
  | value slot outer default =>
    simp only [answer, get?_resolved]
    exact (extending_valueOf fun name child hchild => (inputs name child hchild).1).run pass
  | body slot =>
    simp only [answer, get?_resolved]
    exact (extending_bodyOf fun name child hchild => (inputs name child hchild).2).run pass
  | context operation => rfl
  | fieldText slot => rfl
  | fieldNumber slot => rfl
  | recorded => rfl
  | report event => rfl

theorem extending_emitted (hstandard : g.Standard)
    (inputs : ∀ name child, b.input? name = some child →
      Extending (g.resolve child).emitted ∧ Extending ((g.resolve child).chain true)) :
    Extending (g.resolve b).emitted := by
  rw [resolve_emitted]
  unfold emit
  rcases hstandard b.type with ⟨-, hemitter⟩ | ⟨e, he, -, hemitter⟩
  · rw [hemitter]
    exact fun _ => .throw
  · rw [hemitter]
    refine .of_run fun pass => ?_
    have hleads := appends_builtins he b g.indent (pass.report (.emitting b.id b.type)).context
    exact hleads.run (contextMoves_answer inputs)

/-- Emitting a block or a chain extends the context. -/
theorem extending (hstandard : g.Standard) (b : Block) :
    Extending (g.resolve b).emitted ∧
      ∀ attached, Extending ((g.resolve b).chain attached) := by
  induction b using Block.tree_induction with
  | step b inputs next =>
    have emitted : Extending (g.resolve b).emitted :=
      extending_emitted hstandard fun name child hchild =>
        ⟨(inputs name child hchild).1, (inputs name child hchild).2 true⟩
    refine ⟨emitted, fun attached c => ?_⟩
    rw [resolve_chain]
    refine g.ensures_link (fun _ => True) trivial (fun _ _ _ _ => trivial) ?_ ?_ attached
    · exact (emitted c).mono fun _ _ _ _ => trivial
    · intro follower hfollower
      obtain ⟨child, hchild, rfl⟩ := Option.map_eq_some_iff.mp hfollower
      exact (next child hchild).2 true c

/-- Over the default catalog, with any other names for its types, an emission only adds to
    the end of what its context holds. It leaves the context as deep in tasks as it was and
    with the same unit of indentation, whether it succeeds or fails. The same is true of the
    code for a slot. -/
theorem extends_emission {builder : Builder} {g : Generator}
    (specs : builder.specs = Catalog.default) (emitters : builder.emitters = Emitters.default)
    (built : builder.build = .ok g) (b : Block) (c : Context) :
    c.Extends (g.emitBlock b c).context ∧
      (∀ slot outer default, c.Extends (g.valueCode b slot outer default c).context) ∧
      ∀ slot, c.Extends (g.bodyCode b slot c).context := by
  have hstandard := (Builder.standard_of_build specs emitters built).1
  have hextending := extending hstandard
  refine ⟨(hextending b).1.run ⟨c, []⟩, fun slot outer default => ?_, fun slot => ?_⟩
  · exact (extending_valueOf fun _ child _ => (hextending child).1).run ⟨c, []⟩
  · exact (extending_bodyOf fun _ child _ => (hextending child).2 true).run ⟨c, []⟩

/-- A task with a block of an unknown type in its body. -/
def brokenTask : Block :=
  ⟨"b1", "modbus_task_definition", true, [], [("DO", ⟨"b2", "mystery", true, [], [], none⟩)], none⟩

/-- A context with an import and a task, in an open body. -/
def openContext : Context :=
  ⟨"  ", [("logging", "import logging")], [], ["task_01_loop"], 1⟩

/-- The emission of a task fails inside its body. The name of the task stays registered, and
    the body that was open before is the only open one again. -/
theorem extends_broken_task :
    (emitBlock ⟨⟨Catalog.default⟩, Emitters.default, (Builder.default.indentWidth 4).indent⟩
        brokenTask openContext).result = .error (.unknownBlockType "b2" "mystery") ∧
      (emitBlock ⟨⟨Catalog.default⟩, Emitters.default, (Builder.default.indentWidth 4).indent⟩
        brokenTask openContext).context.tasks = ["task_01_loop", "task_01_2_loop"] ∧
      openContext.Extends
        (emitBlock ⟨⟨Catalog.default⟩, Emitters.default, (Builder.default.indentWidth 4).indent⟩
          brokenTask openContext).context :=
  ⟨rfl, rfl, (extends_emission rfl rfl (Builder.build_default 4) brokenTask openContext).1⟩

end Generator

end PollScript
