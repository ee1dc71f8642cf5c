import PollScript.Proofs.Cumulative

/-!
# Chains, one block at a time

A chain is emitted by going from each block to the one that follows it. What comes of this
is the code of its enabled blocks, each emitted from the pass that the one before it leaves,
with nothing between them.

What was reported before decides nothing. An emitter cannot ask for it, so a computation
gives the same, collects the same and reports the same whatever stands in the report.

Results:

* `yields_chain`: what a chain gives comes from its first block and from those behind it.
* `exists_codes_of_chain`: it is the code of the enabled blocks of the chain.
* `addsToReport`: what was reported stays in front of what a block or a chain adds to it,
  and changes neither its code nor what is collected.
-/

namespace PollScript

open Script

/-! ## What a computation yields -/

namespace Generation

variable {α β : Type} {pass after : Pass}

/-- From a pass, the computation succeeds with a result and leaves another pass. -/
def Yields (x : Generation α) (pass : Pass) (a : α) (after : Pass) : Prop :=
  x.run.run pass = (.ok a, after)

theorem yields_pure {a b : α} :
    Yields (pure a) pass b after ↔ b = a ∧ after = pass := by
  constructor
  · intro h
    cases h
    exact ⟨rfl, rfl⟩
  · rintro ⟨rfl, rfl⟩
    rfl

theorem yields_check {result : Except GenerateError α} {a : α} :
    Yields (check result) pass a after ↔ result = .ok a ∧ after = pass := by
  rw [Yields, run_check, Prod.mk.injEq, eq_comm (a := pass)]

/-- A sequence yields what its second part yields from where the first one ends. -/
theorem yields_bind {x : Generation α} {f : α → Generation β} {b : β} :
    Yields (x >>= f) pass b after ↔ ∃ a mid, Yields x pass a mid ∧ Yields (f a) mid b after := by
  unfold Yields
  rw [run_bind]
  rcases hx : x.run.run pass with ⟨result, mid⟩
  cases result with
  | error e =>
    constructor
    · intro h
      cases h
    · rintro ⟨_, _, heq, -⟩
      cases heq
  | ok a =>
    constructor
    · exact fun h => ⟨a, mid, rfl, h⟩
    · rintro ⟨_, _, heq, h⟩
      cases heq
      exact h

theorem yields_mapM_cons {γ : Type} {f : γ → Generation α} {item : γ} {rest : List γ}
    {results : List α} : Yields ((item :: rest).mapM f) pass results after ↔
      ∃ a mid more, Yields (f item) pass a mid ∧ Yields (rest.mapM f) mid more after ∧
        results = a :: more := by
  rw [List.mapM_cons, yields_bind]
  refine exists_congr fun a => exists_congr fun mid => ?_
  rw [yields_bind]
  constructor
  · rintro ⟨hitem, more, _, hrest, hpure⟩
    obtain ⟨rfl, rfl⟩ := yields_pure.mp hpure
    exact ⟨more, hitem, hrest, rfl⟩
  · rintro ⟨more, hitem, hrest, rfl⟩
    exact ⟨hitem, more, after, hrest, yields_pure.mpr ⟨rfl, rfl⟩⟩

/-- What came of a computation is what it yields from a pass without reports. -/
theorem yields_of_result {x : Generation α} {c : Context} {a : α}
    (h : (x.outcome c).result = .ok a) :
    ∃ events, Yields x ⟨c, []⟩ a ⟨(x.outcome c).context, events⟩ :=
  ⟨(x.outcome c).events, Prod.ext h rfl⟩

/-! ## Reports -/

/-- Neither the result of a computation nor the context that it leaves depends on what was
    reported before. -/
def DisregardsReport (m : StateM Pass α) : Prop :=
  ∀ pass pass' : Pass, pass.context = pass'.context →
    (m.run pass).1 = (m.run pass').1 ∧ (m.run pass).2.context = (m.run pass').2.context

/-- What was reported before stays in front of what the computation reports, and nothing else
    depends on it. -/
def AddsToReport (m : StateM Pass α) : Prop :=
  ∀ (c : Context) (events : List Event),
    m.run ⟨c, events⟩ =
      ((m.run ⟨c, []⟩).1, ⟨(m.run ⟨c, []⟩).2.context, events ++ (m.run ⟨c, []⟩).2.events⟩)

theorem AddsToReport.disregards {m : StateM Pass α} (h : AddsToReport m) :
    DisregardsReport m := by
  rintro ⟨c, events⟩ ⟨_, events'⟩ rfl
  rw [h c events, h c events']
  exact ⟨rfl, rfl⟩

theorem AddsToReport.pure (a : α) : AddsToReport (Pure.pure a) := by
  intro c events
  show (a, Pass.mk c events) = (a, Pass.mk c (events ++ []))
  rw [List.append_nil]

theorem AddsToReport.bind {m : StateM Pass α} {f : α → StateM Pass β} (hm : AddsToReport m)
    (hf : ∀ a, AddsToReport (f a)) : AddsToReport (m >>= f) := by
  intro c events
  show (f (m.run ⟨c, events⟩).1).run (m.run ⟨c, events⟩).2 =
    (((f (m.run ⟨c, []⟩).1).run (m.run ⟨c, []⟩).2).1,
      ⟨((f (m.run ⟨c, []⟩).1).run (m.run ⟨c, []⟩).2).2.context,
        events ++ ((f (m.run ⟨c, []⟩).1).run (m.run ⟨c, []⟩).2).2.events⟩)
  -- what the first part reports is itself in front of what the second one does
  rw [hm c events, hf _ _ (events ++ _), hf _ (m.run ⟨c, []⟩).2.context (m.run ⟨c, []⟩).2.events,
    List.append_assoc]

/-- A program adds to the report if the answers to its questions do. -/
theorem AddsToReport.program {answer : (query : Query) → StateM Pass query.Answer}
    (h : ∀ query, AddsToReport (answer query)) (p : Program α) :
    AddsToReport (p.run answer) := by
  induction p with
  | done a => exact .pure a
  | ask query next ih => exact .bind (h query) ih

/-- A sequence adds to the report if both of its parts do. -/
theorem AddsToReport.seq {x : Generation α} {f : α → Generation β}
    (hx : AddsToReport x.run) (hf : ∀ a, AddsToReport (f a).run) :
    AddsToReport (x >>= f).run := by
  have hrest : ∀ result, AddsToReport (ExceptT.bindCont f result) := by
    intro result
    cases result with
    | ok a => exact hf a
    | error e => exact .pure _
  exact hx.bind hrest

/-- Sequences need nothing but that their parts add to the report, whatever else these add. -/
theorem cumulative_addsToReport :
    Cumulative (π := Unit) fun _ _ x => AddsToReport x.run where
  pure _ := .pure _
  throw _ := .pure _
  bind hx hf := hx.seq hf

/-- What is yielded from a pass with some reports comes of the context alone. -/
theorem Yields.outcome {x : Generation α} (hx : DisregardsReport x.run) {a : α}
    (h : Yields x pass a after) :
    (x.outcome pass.context).result = .ok a ∧ (x.outcome pass.context).context = after.context := by
  obtain ⟨hresult, hcontext⟩ := hx ⟨pass.context, []⟩ pass rfl
  rw [Yields] at h
  rw [h] at hresult hcontext
  exact ⟨hresult, hcontext⟩

end Generation

/-! ## Chains -/

/-- A chain is its first block and the chain behind it. -/
theorem Block.chain_eq (b : Block) : b.chain = b :: Block.chainOf b.next := by
  obtain ⟨id, type, enabled, fields, inputs, next⟩ := b
  rw [Block.chain]

namespace Generator

open Generation

variable (g : Generator)

/-- Emits a block as a statement. -/
def statementCode (b : Block) : Generation String :=
  (g.resolve b).emitted >>= fun f => Generation.check (statementOf b f)

/-- Emits those of the blocks that are enabled, one after the other. -/
def statementCodes (blocks : List Block) : Generation (List String) :=
  (blocks.filter (·.enabled)).mapM g.statementCode

variable {g} {b : Block} {attached : Bool} {pass after : Pass}

/-- What a chain gives is the code of its first block, and behind it what those give that
    follow. -/
theorem yields_chain {code : String} :
    Yields ((g.resolve b).chain attached) pass code after ↔
      g.checkLink b attached = .ok () ∧ ∃ own mid more,
        Yields (ownCode b (g.resolve b).emitted) pass own mid ∧
          Yields (chainCode (b.next.map g.resolve) true) mid more after ∧ code = own ++ more := by
  rw [resolve_chain, link_eq, yields_bind]
  constructor
  · rintro ⟨_, _, hcheck, h⟩
    obtain ⟨hlink, rfl⟩ := yields_check.mp hcheck
    obtain ⟨own, mid, hown, h⟩ := yields_bind.mp h
    obtain ⟨more, _, hmore, h⟩ := yields_bind.mp h
    obtain ⟨rfl, rfl⟩ := yields_pure.mp h
    exact ⟨hlink, own, mid, more, hown, hmore, rfl⟩
  · rintro ⟨hlink, own, mid, more, hown, hmore, rfl⟩
    refine ⟨(), pass, yields_check.mpr ⟨hlink, rfl⟩, ?_⟩
    refine yields_bind.mpr ⟨own, mid, hown, yields_bind.mpr ⟨more, after, hmore, ?_⟩⟩
    exact yields_pure.mpr ⟨rfl, rfl⟩

/-- What a chain gives is the code of its enabled blocks. -/
theorem exists_codes_of_chain {code : String}
    (h : Yields ((g.resolve b).chain attached) pass code after) :
    ∃ codes, Yields (g.statementCodes b.chain) pass codes after ∧ String.join codes = code := by
  induction b using Block.tree_induction generalizing attached pass code with
  | step b inputs next =>
    obtain ⟨-, own, mid, more, hown, hmore, rfl⟩ := yields_chain.mp h
    obtain ⟨codes, hcodes, rfl⟩ :
        ∃ codes, Yields (g.statementCodes (Block.chainOf b.next)) mid codes after ∧
          String.join codes = more := by
      cases hnext : b.next with
      | none =>
        rw [hnext] at hmore
        obtain ⟨rfl, rfl⟩ := yields_pure.mp hmore
        exact ⟨[], yields_pure.mpr ⟨rfl, rfl⟩, rfl⟩
      | some follower =>
        rw [hnext] at hmore
        exact next follower hnext hmore
    rw [ownCode] at hown
    rw [Block.chain_eq, statementCodes, List.filter_cons]
    split at hown
    · next henabled =>
      rw [if_pos henabled]
      refine ⟨own :: codes, yields_mapM_cons.mpr ⟨own, mid, codes, hown, hcodes, rfl⟩, ?_⟩
      rw [String.join_cons]
    · next hdisabled =>
      obtain ⟨rfl, rfl⟩ := yields_pure.mp hown
      rw [if_neg hdisabled, String.empty_append]
      exact ⟨codes, hcodes, rfl⟩

/-- Each code was made by the emission of one of the blocks. -/
theorem exists_of_mem_statementCodes {blocks : List Block} {codes : List String} {code : String}
    (h : Yields (g.statementCodes blocks) pass codes after) (hcode : code ∈ codes) :
    ∃ b ∈ blocks, ∃ start mid, Yields (g.resolve b).emitted start (.statement code) mid := by
  rw [statementCodes] at h
  -- which of the blocks are emitted does not matter here
  have hmem : ∀ b ∈ blocks.filter (·.enabled), b ∈ blocks := fun _ => List.mem_of_mem_filter
  generalize blocks.filter (·.enabled) = emitted at h hmem
  induction emitted generalizing pass codes with
  | nil =>
    obtain ⟨rfl, -⟩ := yields_pure.mp h
    cases hcode
  | cons b rest ih =>
    obtain ⟨own, mid, more, hown, hmore, rfl⟩ := yields_mapM_cons.mp h
    rcases List.mem_cons.mp hcode with rfl | hcode
    · obtain ⟨f, start, hf, hown⟩ := yields_bind.mp hown
      obtain ⟨hstatement, rfl⟩ := yields_check.mp hown
      cases f with
      | expression text order => cases hstatement
      | statement text =>
        cases hstatement
        exact ⟨b, hmem b List.mem_cons_self, pass, _, hf⟩
    · exact ih hcode hmore fun c hc => hmem c (List.mem_cons_of_mem b hc)

/-! ## What is reported -/

theorem addsToReport_context (operation : Context.Operation) :
    AddsToReport (modifyGet (·.perform operation)) := by
  intro c events
  show ((c.apply operation).1, Pass.mk (c.apply operation).2 events) =
    ((c.apply operation).1, Pass.mk (c.apply operation).2 (events ++ []))
  rw [List.append_nil]

theorem addsToReport_recorded :
    AddsToReport (do return (← get).context.recorded : StateM Pass Context.Recorded) := by
  intro c events
  show (c.recorded, Pass.mk c events) = (c.recorded, Pass.mk c (events ++ []))
  rw [List.append_nil]

/-- Whatever the emitters of a generator are, a block and a chain add to what was
    reported. -/
theorem addsToReport (g : Generator) (b : Block) :
    AddsToReport (g.resolve b).emitted.run ∧
      ∀ attached, AddsToReport ((g.resolve b).chain attached).run := by
  induction b using Block.tree_induction with
  | step b inputs next =>
    have hemitted : AddsToReport (g.resolve b).emitted.run := by
      rw [resolve_emitted]
      unfold emit
      split
      · exact .pure _
      · refine .seq (fun _ _ => rfl) fun _ => .program (fun query => ?_) _
        cases query with
        | value slot outer default =>
          simp only [answer, get?_resolved]
          exact cumulative_addsToReport.valueOf (fun _ => []) fun child hchild _ =>
            (inputs slot child hchild).1
        | body slot =>
          simp only [answer, get?_resolved]
          exact cumulative_addsToReport.bodyOf (fun _ => []) fun first hfirst =>
            (inputs slot first hfirst).2 true
        | fieldText slot => exact .pure _
        | fieldNumber slot => exact .pure _
        | recorded => exact addsToReport_recorded
        | context operation => exact addsToReport_context operation
        | report event => exact fun _ _ => rfl
    refine ⟨hemitted, fun attached => ?_⟩
    rw [resolve_chain]
    exact cumulative_addsToReport.link (fun _ => []) [] (fun _ => hemitted)
      fun follower hfollower => (next follower hfollower).2 true

theorem disregardsReport_statementCodes (g : Generator) (blocks : List Block) :
    DisregardsReport (g.statementCodes blocks).run := by
  refine (cumulative_addsToReport.mapM (fun _ => []) fun b _ => ?_).disregards
  exact (g.addsToReport b).1.seq fun _ => cumulative_addsToReport.check

end Generator

end PollScript
