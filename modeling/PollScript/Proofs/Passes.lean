import PollScript.Proofs.BlockTree

/-!
# Passes over one context

A context may serve many passes. Each of them leaves it empty, with the unit of
indentation that it had, whatever was collected before, whichever emitters ran
and wherever the pass failed. So no pass sees anything of those before it.

Results:

* `indent_generateWith`: a pass keeps the unit of indentation.
* `passes_isolated`: a pass leaves its context empty, and passes over one
  context give what each of them gives alone.
-/

namespace PollScript.Generator

open Script

/-- Runs passes one after the other over the same context, and gives what came
    of each. -/
def generateAll (g : Generator) : List Workspace → Context → List (Except GenerateError String)
  | [], _ => []
  | w :: rest, context =>
    let outcome := g.generateWith w context
    outcome.result :: generateAll g rest outcome.context

/-! ## The unit of indentation -/

/-- The contract that forbids nothing and promises nothing. -/
def freeContract : Contract where
  asks _ _ _ := True
  does _ := True
  value _ _ _ _ := True
  body _ _ := True
  text _ _ := True
  number _ _ := True
  recorded _ := True

theorem meets_freeContract {α : Type} (p : Program α) :
    p.Meets freeContract fun _ => True := by
  induction p with
  | done a => trivial
  | ask query next ih =>
    refine ⟨?_, fun answer _ => ih answer⟩
    cases query <;> trivial

variable (g : Generator)

/-- Emitting a block or a chain keeps the unit of indentation, whatever the
    emitters are. -/
theorem ensures_indent (indent : String) (b : Block) :
    Generation.Ensures (fun pass => pass.context.indent = indent) (fun _ => True)
        (g.resolve b).emitted ∧
      ∀ attached, Generation.Ensures (fun pass => pass.context.indent = indent) (fun _ => True)
        ((g.resolve b).chain attached) := by
  refine g.ensures_resolve (fun _ _ => True) (fun _ => True) trivial
    (fun _ _ _ _ => trivial) (fun _ _ _ => trivial) ?_ b
  intro b inputs
  refine g.ensures_emitted freeContract ?_ ?_ ?_ ?_ ?_ ?_ ?_ ?_
  · intro slot outer default _
    refine (g.ensures_valueOf (fun _ _ => True) fun child hchild => ?_).mono fun _ _ => trivial
    obtain ⟨c, hc, rfl⟩ := Option.map_eq_some_iff.mp (g.supplier_eq_some hchild).1
    exact (inputs slot c hc).1
  · intro slot
    refine (g.ensures_bodyOf (fun _ _ => True) fun first hfirst => ?_).mono fun _ _ => trivial
    obtain ⟨c, hc, rfl⟩ := Option.map_eq_some_iff.mp hfirst
    exact (inputs slot c hc).2
  · exact fun _ _ _ => trivial
  · exact fun _ _ _ => trivial
  · exact fun _ _ => trivial
  · intro operation _ pass hpass
    exact (Context.indent_apply operation pass.context).trans hpass
  · exact fun _ _ hpass => hpass
  · exact fun emitter _ => (meets_freeContract _).mono fun _ _ _ _ => trivial

/-- A pass keeps the unit of indentation. -/
theorem indent_generateWith (w : Workspace) (c : Context) :
    (g.generateWith w c).context.indent = c.indent := by
  have h : ((g.topLevels w).run.run ⟨c, []⟩).2.context.indent = c.indent :=
    (g.ensures_topLevels (fun _ => True) trivial
      (fun b => (g.ensures_indent c.indent b).1.mono fun f _ => by cases f <;> trivial)
      (fun b => (g.ensures_indent c.indent b).2 false) ⟨c, []⟩ rfl).1
  rw [generateWith_context]
  exact h

/-! ## Passes in sequence -/

/-- A context that is empty is the one that passes begin with. -/
theorem eq_withIndent {c : Context} (h : c.recorded = ⟨[], [], [], false⟩) :
    c = Context.withIndent c.indent := by
  obtain ⟨indent, imports, helpers, tasks, taskDepth⟩ := c
  simp_all [Context.recorded, Context.withIndent]

/-- A pass leaves the context that passes begin with. -/
theorem context_generateWith (w : Workspace) (c : Context) :
    (g.generateWith w c).context = Context.withIndent c.indent := by
  have h := eq_withIndent (g.recorded_generateWith w c)
  rwa [indent_generateWith] at h

/-- In an empty context every key can be requested. -/
theorem request_withIndent (indent key text : String) :
    ((Context.withIndent indent).requireImport key text).1 = true ∧
      ((Context.withIndent indent).provideHelper key text).1 = true :=
  ⟨rfl, rfl⟩

/-- A pass leaves nothing in its context but the unit of indentation, whatever
    the context held before and however the pass ended. Passes over one context
    therefore give what each of them gives alone. -/
theorem passes_isolated :
    (∀ (w : Workspace) (c : Context),
      (g.generateWith w c).context.recorded = ⟨[], [], [], false⟩ ∧
      (g.generateWith w c).context.taskDepth = 0 ∧
      (g.generateWith w c).context.indent = c.indent ∧
      ∀ key text, ((g.generateWith w c).context.requireImport key text).1 = true ∧
        ((g.generateWith w c).context.provideHelper key text).1 = true) ∧
    ∀ ws : List Workspace,
      g.generateAll ws (Context.withIndent g.indent) = ws.map g.generate := by
  constructor
  · intro w c
    rw [context_generateWith]
    exact ⟨rfl, rfl, rfl, request_withIndent c.indent⟩
  · intro ws
    induction ws with
    | nil => rfl
    | cons w rest ih =>
      -- the context after the first pass is the one before it
      have after : (g.generateWith w (Context.withIndent g.indent)).context =
          Context.withIndent g.indent := context_generateWith g w _
      rw [generateAll, List.map_cons, after, ih]
      rfl

end PollScript.Generator
