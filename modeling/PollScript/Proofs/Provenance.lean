import PollScript.Emitters.Template
import PollScript.Proofs.Visits

/-!
# Where an unknown type comes from

That a block has an unregistered type is found out in two places: where the type of a
block is looked up, and where its emitter is. All other errors of the generator say
something else. An emitter passes on what it is answered with, but it is a program like any
other and may also end with an error of its own making. So where every registered type has
an emitter and no emitter invents the error, no registered type is ever called unknown.

Results:

* `Program.run_ne_error`: a program that does not invent an error only ends with it if it is
  answered with it.
* `not_invents_builtins`, `not_invents_template`: the emitters of the built-in types invent no
  errors, nor do templates.
* `Generator.avoids_resolve`: no block of a registered type is called unknown, in an
  emission or in a chain.
-/

namespace PollScript

open Script

/-! ## Programs -/

namespace Script.Program

/-- The program may end with the error though no question was answered with it. -/
def Invents {α : Type} (e : GenerateError) : Program (Except GenerateError α) → Prop
  | .done result => result = .error e
  | .ask query next => ∃ answer, query.verdict answer ≠ .error e ∧ (next answer).Invents e

variable {σ : Type} {answer : (query : Query) → StateM σ query.Answer} {e fault : GenerateError}

/-- A program that does not invent an error, and is never answered with it, does not end
    with it. -/
theorem run_ne_error {p : Program (Except GenerateError Fragment)} (honest : ¬ p.Invents e)
    (answers : ∀ (query : Query) (s : σ), query.verdict ((answer query).run s).1 ≠ .error e)
    (s : σ) : ((p.run answer).run s).1 ≠ .error e := by
  induction p generalizing s with
  | done result => exact honest
  | ask query next ih =>
    have hnext : ¬ (next ((answer query).run s).1).Invents e :=
      fun h => honest ⟨_, answers query s, h⟩
    exact ih _ hnext _

theorem Fails.not_invents {p : Program (Except GenerateError Fragment)} (h : p.Fails fault)
    (hne : fault ≠ e) : ¬ p.Invents e := by
  induction p with
  | done result =>
    intro hresult
    rw [h] at hresult
    exact hne (Except.error.inj hresult)
  | ask query next ih =>
    rintro ⟨answer, -, hnext⟩
    cases query with
    | context operation => exact ih answer (h answer) hnext
    | _ => exact h.elim

/-- A program that visits slots fails with what it is answered with. -/
theorem Visits.not_invents {isValue : Bool} {slots : List Slot}
    {p : Program (Except GenerateError Fragment)} (h : p.Visits isValue slots) :
    ¬ p.Invents e := by
  induction h with
  | done kind => exact nofun
  | aside other rest ih =>
    rintro ⟨answer, -, hnext⟩
    exact ih answer hnext
  | @visit slot slots query next poses rest fails ih =>
    rintro ⟨answer, hanswer, hnext⟩
    cases hverdict : query.verdict answer with
    | ok _ => exact ih answer hverdict hnext
    | error fault =>
      have hne : fault ≠ e := fun heq => hanswer (heq ▸ hverdict)
      exact (fails answer fault hverdict).not_invents hne hnext

end Script.Program

/-! ## Emitters -/

namespace Script.Emit

variable {α β : Type}

/-- The emitter ends with no error that it is not answered with. -/
def Honest (x : Emit α) : Prop :=
  ∀ e, ¬ x.run.Invents e

theorem Honest.pure {a : α} : Honest (Pure.pure a : Emit α) :=
  fun _ => nofun

theorem Honest.bind {x : Emit α} {f : α → Emit β} (hx : x.Honest) (hf : ∀ a, (f a).Honest) :
    (x >>= f).Honest := by
  intro e
  have hrest : ∀ p : Program (Except GenerateError α), ¬ p.Invents e →
      ¬ (p.bind (ExceptT.bindCont f)).Invents e := by
    intro p hp
    induction p with
    | done result =>
      cases result with
      | ok a => exact hf a e
      | error fault => exact fun h => hp (congrArg _ (Except.error.inj h))
    | ask query next ih =>
      rintro ⟨answer, hanswer, hnext⟩
      exact ih answer (fun h => hp ⟨answer, hanswer, h⟩) hnext
  exact hrest x.run (hx e)

theorem Honest.map {x : Emit α} (hx : x.Honest) (f : α → β) : (f <$> x).Honest := by
  rw [← bind_pure_comp]
  exact hx.bind fun _ => .pure

theorem Honest.ask (query : Query) : (ask query).Honest := by
  rintro e ⟨answer, -, hnext⟩
  cases hnext

theorem Honest.perform (operation : Context.Operation) : (perform operation).Honest :=
  (Honest.ask (.context operation)).map fun _ => ()

/-- A question whose answer is checked passes the error of the answer on. -/
theorem Honest.checked {query : Query} {result : query.Answer → Except GenerateError α}
    (same : ∀ answer, query.verdict answer = PollScript.verdict (result answer)) :
    (Emit.ask query >>= fun answer => check (result answer)).Honest := by
  rintro e ⟨answer, hanswer, hnext⟩
  change Program.Invents e (check (result answer)).run at hnext
  rw [same answer] at hanswer
  cases hresult : result answer with
  | ok a =>
    rw [hresult] at hnext
    cases hnext
  | error fault =>
    rw [hresult] at hnext hanswer
    exact hanswer (congrArg _ (Except.error.inj hnext))

theorem Honest.value (slot : String) (outer : Order) (default : String) :
    (value slot outer default).Honest :=
  .checked fun _ => rfl

theorem Honest.body (slot : String) : (body slot).Honest :=
  .checked fun _ => rfl

theorem Honest.fieldText (slot : String) : (fieldText slot).Honest :=
  .checked fun _ => rfl

theorem Honest.fieldNumber (slot : String) : (fieldNumber slot).Honest :=
  .checked fun _ => rfl

end Script.Emit

namespace Emitters

mutual

/-- A step of a template makes no error up, and the steps inside it do not either. -/
theorem honest_emit (indent : String) : ∀ step : Step, (step.emit indent).Honest
  | .code text => by
    rw [Step.emit]
    exact .pure
  | .value slot outer default => by
    rw [Step.emit]
    exact .value slot outer default
  | .body slot => by
    rw [Step.emit]
    exact .body slot
  | .fieldText slot => by
    rw [Step.emit]
    exact .fieldText slot
  | .fieldNumber slot => by
    rw [Step.emit]
    exact (Emit.Honest.fieldNumber slot).map _
  | .indented steps => by
    rw [Step.emit]
    exact (honest_emitAll indent steps).map _
  | .place => by
    rw [Step.emit]
    exact (Emit.Honest.ask .recorded).map _
  | .perform operation => by
    rw [Step.emit]
    exact (Emit.Honest.perform operation).map _

theorem honest_emitAll (indent : String) :
    ∀ steps : List Step, (Step.emitAll indent steps).Honest
  | [] => by
    rw [Step.emitAll]
    exact .pure
  | step :: rest => by
    rw [Step.emitAll]
    exact (honest_emit indent step).bind fun code =>
      (honest_emitAll indent rest).bind fun more => .pure

end

end Emitters

/-- The emitter may end with an error of its own making. -/
def Script.Emitter.Invents (emitter : Emitter) (indent : String) (e : GenerateError) : Prop :=
  ∃ b, (emitter b indent).run.Invents e

/-- The emitters of the built-in types pass on what they are answered with. -/
theorem not_invents_builtins {builtin : Builtin} (h : builtin ∈ builtins) {indent : String}
    {e : GenerateError} : ¬ builtin.emitter.Invents indent e := by
  rintro ⟨b, hb⟩
  exact (visits_builtins h b indent).not_invents hb

/-- So do emitters that are given as templates. -/
theorem not_invents_template (template : Emitters.Template) {indent : String}
    {e : GenerateError} : ¬ template.emitter.Invents indent e := by
  rintro ⟨b, hb⟩
  refine ((Emitters.honest_emitAll indent template.steps).bind fun code => ?_) e hb
  cases template.order with
  | some order => exact .pure
  | none => exact .pure

/-! ## Computations that avoid an error -/

/-- A sequence of two steps does not end with an error that neither of them ends with. -/
theorem bind_ne_error {ε α β : Type} {x : Except ε α} {f : α → Except ε β} {e : ε}
    (hx : x ≠ .error e) (hf : ∀ a, f a ≠ .error e) : (x >>= f) ≠ .error e := by
  cases x with
  | ok a => exact hf a
  | error fault => exact fun h => hx (congrArg _ (Except.error.inj h))

namespace Generation

variable {α β : Type} {e : GenerateError}

/-- The computation does not end with the error, whatever the pass. -/
def Avoids (e : GenerateError) (x : Generation α) : Prop :=
  ∀ pass, (x.run.run pass).1 ≠ .error e

theorem Avoids.pure {a : α} : Avoids e (Pure.pure a : Generation α) :=
  fun _ => nofun

theorem Avoids.check {result : Except GenerateError α} (h : result ≠ .error e) :
    Avoids e (check result) := by
  intro pass
  rw [run_check]
  exact h

theorem Avoids.throw {fault : GenerateError} (h : fault ≠ e) :
    Avoids e (throw fault : Generation α) :=
  fun _ heq => h (Except.error.inj heq)

theorem Avoids.bind {x : Generation α} {f : α → Generation β} (hx : Avoids e x)
    (hf : ∀ a, Avoids e (f a)) : Avoids e (x >>= f) := by
  intro pass
  rw [run_bind]
  cases hres : (x.run.run pass).1 with
  | ok a => exact hf a _
  | error fault => exact fun h => hx pass (hres.trans (congrArg _ (Except.error.inj h)))

/-- A sequence goes on with a result that is taken over. -/
theorem Avoids.check_bind {result : Except GenerateError α} {f : α → Generation β}
    (h : result ≠ .error e) (hf : ∀ a, result = .ok a → Avoids e (f a)) :
    Avoids e (Generation.check result >>= f) := by
  intro pass
  rw [run_bind, run_check]
  cases result with
  | ok a => exact hf a rfl pass
  | error fault => exact fun heq => h (congrArg _ (Except.error.inj heq))

end Generation

/-! ## Types that are called unknown -/

namespace Generator

variable {g : Generator} {id type : String}

/-- Only unregistered types are called unknown where the type of a block is looked up. -/
theorem specOf_ne_unknown (known : type ∈ g.registry.types) (b : Block) :
    g.specOf b ≠ .error (.unknownBlockType id type) := by
  unfold specOf
  cases hspec : g.registry.get? b.type with
  | some spec => exact nofun
  | none =>
    intro h
    cases h
    have hcontains := Registry.contains_iff.mpr known
    rw [Registry.contains, hspec] at hcontains
    cases hcontains

theorem slotKind_ne_unknown (known : type ∈ g.registry.types) (b : Block) (slot : String) :
    g.slotKind b slot ≠ .error (.unknownBlockType id type) := by
  refine bind_ne_error (specOf_ne_unknown known b) fun spec => ?_
  split <;> exact nofun

theorem fieldNumber_ne_unknown (known : type ∈ g.registry.types) (b : Block) (slot : String) :
    g.fieldNumber b slot ≠ .error (.unknownBlockType id type) := by
  have hread : ∀ default, readNumber b slot default ≠ .error (.unknownBlockType id type) := by
    intro default
    unfold readNumber
    split
    · exact nofun
    · exact nofun
    · split <;> exact nofun
  refine bind_ne_error (slotKind_ne_unknown known b slot) fun kind => ?_
  split
  · refine bind_ne_error (hread _) fun value => ?_
    split <;> exact nofun
  · exact nofun

theorem fieldText_ne_unknown (known : type ∈ g.registry.types) (b : Block) (slot : String) :
    g.fieldText b slot ≠ .error (.unknownBlockType id type) := by
  refine bind_ne_error (slotKind_ne_unknown known b slot) fun kind => ?_
  split
  · exact nofun
  · unfold chosen
    split
    · exact nofun
    · split <;> exact nofun
  · exact bind_ne_error (fieldNumber_ne_unknown known b slot) fun _ => nofun
  · exact nofun

theorem supplier_ne_unknown (known : type ∈ g.registry.types) (b : Block) (slot : String)
    (connected : Option Resolved) :
    g.supplier b slot connected ≠ .error (.unknownBlockType id type) := by
  refine bind_ne_error (slotKind_ne_unknown known b slot) fun kind => ?_
  split
  · split
    · exact nofun
    · refine bind_ne_error (specOf_ne_unknown known _) fun spec => ?_
      split
      · exact nofun
      · split <;> exact nofun
  · exact nofun

theorem splice_ne_unknown (outer : Order) (default : String) (child : Block) (f : Fragment) :
    splice outer default child f ≠ .error (.unknownBlockType id type) := by
  unfold splice
  split
  · split
    · exact nofun
    · split <;> exact nofun
  · exact nofun

theorem checkLink_ne_unknown (known : type ∈ g.registry.types) (b : Block) (attached : Bool) :
    g.checkLink b attached ≠ .error (.unknownBlockType id type) := by
  refine bind_ne_error (specOf_ne_unknown known b) fun spec => ?_
  cases spec.isValueBlock with
  | true => exact nofun
  | false => cases attached && !spec.followsOthers <;> exact nofun

theorem statementOf_ne_unknown (b : Block) (f : Fragment) :
    statementOf b f ≠ .error (.unknownBlockType id type) := by
  cases f with
  | expression code order => exact nofun
  | statement code => exact nofun

/-! ## Emissions and chains -/

theorem avoids_valueOf (known : type ∈ g.registry.types) {b : Block} {slot default : String}
    {outer : Order} {connected : Option Resolved}
    (h : ∀ child, connected = some child →
      Generation.Avoids (.unknownBlockType id type) child.emitted) :
    Generation.Avoids (.unknownBlockType id type)
      (g.valueOf b slot outer default connected) := by
  refine .check_bind (supplier_ne_unknown known b slot connected) fun supplied hsupplied => ?_
  cases supplied with
  | none => exact .pure
  | some child =>
    have hchild := h child (g.supplier_eq_some hsupplied).1
    exact hchild.bind fun f => .check (splice_ne_unknown outer default child.block f)

theorem avoids_chainCode {first : Option Resolved} {attached : Bool}
    (h : ∀ r, first = some r →
      Generation.Avoids (.unknownBlockType id type) (r.chain attached)) :
    Generation.Avoids (.unknownBlockType id type) (chainCode first attached) := by
  cases first with
  | none => exact .pure
  | some r => exact h r rfl

theorem avoids_bodyOf (known : type ∈ g.registry.types) {b : Block} {slot : String}
    {connected : Option Resolved}
    (h : ∀ first, connected = some first →
      Generation.Avoids (.unknownBlockType id type) (first.chain true)) :
    Generation.Avoids (.unknownBlockType id type) (g.bodyOf b slot connected) := by
  rw [bodyOf_eq]
  refine .bind (.check (slotKind_ne_unknown known b slot)) fun kind => ?_
  split
  · exact (avoids_chainCode h).bind fun code => .pure
  · exact .throw nofun

/-- A block is emitted without a registered type being called unknown if that holds of the
    blocks in its inputs, and its emitter is there and does not invent it. -/
theorem avoids_emitted (known : type ∈ g.registry.types)
    (emitted : ∀ name ∈ g.registry.types, Dictionary.has g.emitters name = true)
    (honest : ∀ name emitter, Dictionary.get? g.emitters name = some emitter →
      ¬ emitter.Invents g.indent (.unknownBlockType id type)) {b : Block}
    (inputs : ∀ slot child, b.input? slot = some child →
      Generation.Avoids (.unknownBlockType id type) (g.resolve child).emitted ∧
        ∀ attached, Generation.Avoids (.unknownBlockType id type)
          ((g.resolve child).chain attached)) :
    Generation.Avoids (.unknownBlockType id type) (g.resolve b).emitted := by
  have answers : ∀ (query : Query) (pass : Pass), query.verdict
      ((g.answer b (Dictionary.mapValues g.resolve b.inputs) query).run pass).1 ≠
        .error (.unknownBlockType id type) := by
    intro query pass hverdict
    cases query with
    | value slot outer default =>
      simp only [answer, get?_resolved] at hverdict
      refine avoids_valueOf known (fun r hr => ?_) pass (verdict_eq_error_iff.mp hverdict)
      obtain ⟨child, hchild, rfl⟩ := Option.map_eq_some_iff.mp hr
      exact (inputs slot child hchild).1
    | body slot =>
      simp only [answer, get?_resolved] at hverdict
      refine avoids_bodyOf known (fun r hr => ?_) pass (verdict_eq_error_iff.mp hverdict)
      obtain ⟨child, hchild, rfl⟩ := Option.map_eq_some_iff.mp hr
      exact (inputs slot child hchild).2 true
    | fieldText slot =>
      exact fieldText_ne_unknown known b slot (verdict_eq_error_iff.mp hverdict)
    | fieldNumber slot =>
      exact fieldNumber_ne_unknown known b slot (verdict_eq_error_iff.mp hverdict)
    | recorded => cases hverdict
    | context operation => cases hverdict
    | report event => cases hverdict
  rw [resolve_emitted]
  unfold emit
  cases hemitter : Dictionary.get? g.emitters b.type with
  | none =>
    refine .throw fun h => ?_
    cases h
    have hhas := emitted _ known
    rw [Dictionary.has, hemitter] at hhas
    cases hhas
  | some emitter =>
    intro pass
    have hhonest : ¬ (emitter b g.indent).run.Invents (.unknownBlockType id type) :=
      fun h => honest _ _ hemitter ⟨b, h⟩
    exact Program.run_ne_error hhonest answers (pass.report (.emitting b.id b.type))

theorem avoids_link (known : type ∈ g.registry.types) {b : Block} {emitted : Generation Fragment}
    {next : Option Resolved} {attached : Bool}
    (hemitted : Generation.Avoids (.unknownBlockType id type) emitted)
    (hnext : ∀ follower, next = some follower →
      Generation.Avoids (.unknownBlockType id type) (follower.chain true)) :
    Generation.Avoids (.unknownBlockType id type) (g.link b emitted next attached) := by
  rw [link_eq]
  refine .bind (.check (checkLink_ne_unknown known b attached)) fun _ => .bind ?_ fun code => ?_
  · unfold ownCode
    split
    · exact hemitted.bind fun f => .check (statementOf_ne_unknown b f)
    · exact .pure
  · exact (avoids_chainCode hnext).bind fun more => .pure

/-- Where every registered type has an emitter and no emitter invents the error, no
    registered type is called unknown, in the emission of a block or in a chain. -/
theorem avoids_resolve (known : type ∈ g.registry.types)
    (emitted : ∀ name ∈ g.registry.types, Dictionary.has g.emitters name = true)
    (honest : ∀ name emitter, Dictionary.get? g.emitters name = some emitter →
      ¬ emitter.Invents g.indent (.unknownBlockType id type)) (b : Block) :
    Generation.Avoids (.unknownBlockType id type) (g.resolve b).emitted ∧
      ∀ attached, Generation.Avoids (.unknownBlockType id type)
        ((g.resolve b).chain attached) := by
  induction b using Block.tree_induction with
  | step b inputs next =>
    have hemitted := avoids_emitted known emitted honest inputs
    refine ⟨hemitted, fun attached => ?_⟩
    rw [resolve_chain]
    refine avoids_link known hemitted fun follower hfollower => ?_
    obtain ⟨c, hc, rfl⟩ := Option.map_eq_some_iff.mp hfollower
    exact (next c hc).2 true

end Generator

end PollScript
