import PollScript.Proofs.Contract
import PollScript.Proofs.Dictionaries

/-!
# Block trees

A block holds the blocks in its inputs and the block after it, so what is to be
shown of all blocks is shown by induction over trees. A resolved block is built
along the same tree, and what holds of a pass is carried up it.

Results:

* `Block.tree_induction`: what passes from inputs and followers to a block
  holds of every block.
* `Block.fold_eq`: a fold over a block is made of the folds in its inputs and
  after it.
* `Generator.link_eq`: the code of a chain is that of its first block and that of the
  chain behind it.
* `Generator.ensures_emitted`: an emission ensures what the emitter's contract
  promises.
* `Generator.ensures_resolve`: what an emission ensures if the emissions in the
  inputs do, every emission and every chain ensures.
* `Generator.ensures_topLevels`: what holds of every resolved block holds of
  the pieces that a pass puts together.
* `Generator.exists_of_generate_eq_ok`: a script is finalised from such pieces.
-/

namespace PollScript

open Script

/-! ## Induction -/

/-- What passes from the blocks in the inputs and the block that follows to
    each block holds of every block. -/
theorem Block.tree_induction {P : Block → Prop}
    (step : ∀ b : Block, (∀ slot child, b.input? slot = some child → P child) →
      (∀ follower, b.next = some follower → P follower) → P b) (b : Block) : P b := by
  refine @Block.rec P (fun inputs => ∀ entry ∈ inputs, P entry.2)
    (fun next => ∀ follower, next = some follower → P follower)
    (fun entry => P entry.2) ?_ ?_ ?_ ?_ ?_ ?_ b
  · intro id type enabled fields inputs next hinputs hnext
    refine step _ (fun slot child hchild => ?_) hnext
    exact hinputs _ (Dictionary.mem_of_get? hchild)
  · intro entry hentry
    cases hentry
  · intro entry rest hentry hrest other hother
    rcases List.mem_cons.mp hother with rfl | hother
    · exact hentry
    · exact hrest other hother
  · intro follower hfollower
    cases hfollower
  · intro b hb follower hfollower
    cases hfollower
    exact hb
  · intro slot child hchild
    exact hchild

/-! ## Folds -/

namespace Block

variable {α : Type} (f : Block → List (String × α) → Option α → α)

mutual

/-- What comes of a block, given what comes of the blocks in its inputs and of
    the block that follows. -/
def fold : Block → α
  | ⟨id, type, enabled, fields, inputs, next⟩ =>
    f ⟨id, type, enabled, fields, inputs, next⟩ (foldInputs inputs) (foldNext next)

/-- What comes of the blocks in inputs. -/
def foldInputs : List (String × Block) → List (String × α)
  | [] => []
  | (name, b) :: rest => (name, fold b) :: foldInputs rest

/-- What comes of the block that follows, if there is one. -/
def foldNext : Option Block → Option α
  | none => none
  | some b => some (fold b)

end

theorem foldInputs_eq (inputs : List (String × Block)) :
    foldInputs f inputs = Dictionary.mapValues (fold f) inputs := by
  induction inputs with
  | nil => simp [foldInputs, Dictionary.mapValues]
  | cons entry rest ih => simp_all [foldInputs, Dictionary.mapValues]

theorem foldNext_eq (next : Option Block) : foldNext f next = next.map (fold f) := by
  cases next <;> simp [foldNext]

/-- A fold is applied to the folds in the inputs and after the block. -/
theorem fold_eq (b : Block) :
    fold f b = f b (Dictionary.mapValues (fold f) b.inputs) (b.next.map (fold f)) := by
  cases b; simp [fold, foldInputs_eq, foldNext_eq]

end Block

namespace Generator

variable (g : Generator) {inv : Pass → Prop}

/-- What the emitter of a block finds in a slot is the resolved block in the
    input. -/
theorem get?_resolved (b : Block) (slot : String) :
    Dictionary.get? (Dictionary.mapValues g.resolve b.inputs) slot =
      (b.input? slot).map g.resolve :=
  Dictionary.get?_mapValues _ _ _

@[simp] theorem resolve_block (b : Block) : (g.resolve b).block = b := by
  rw [resolve_eq]

theorem resolve_emitted (b : Block) :
    (g.resolve b).emitted = g.emit b (Dictionary.mapValues g.resolve b.inputs) := by
  rw [resolve_eq]

theorem resolve_chain (b : Block) :
    (g.resolve b).chain = g.link b (g.resolve b).emitted (b.next.map g.resolve) := by
  rw [resolve_eq]

theorem specOf_eq_ok {b : Block} {spec : BlockSpec} :
    g.specOf b = .ok spec ↔ g.registry.get? b.type = some spec := by
  unfold specOf
  cases g.registry.get? b.type with
  | none => simp
  | some found => simp

/-! ## Connections -/

/-- What supplies a value is the connected block, which is enabled and gives a
    value that fits the slot. -/
theorem supplier_eq_some {b : Block} {slot : String} {connected : Option Resolved}
    {child : Resolved} (h : g.supplier b slot connected = .ok (some child)) :
    connected = some child ∧ child.block.enabled = true ∧
      ∃ check spec output, g.slotKind b slot = .ok (.value check) ∧
        g.specOf child.block = .ok spec ∧ spec.output = some output ∧
        output.fits check = true := by
  obtain ⟨kind, hkind, h⟩ := bind_eq_ok.mp h
  split at h
  · next check =>
    split at h
    · cases h
    · next other hother =>
      obtain ⟨spec, hspec, h⟩ := bind_eq_ok.mp h
      split at h
      · cases h
      · next output houtput =>
        split at h
        · next hfits =>
          cases h
          obtain ⟨hconnected, henabled⟩ := Option.filter_eq_some_iff.mp hother
          exact ⟨hconnected, henabled, check, spec, output, hkind, hspec, houtput, hfits⟩
        · cases h
  · cases h

/-- Nothing supplies a value if no block is connected, or one that is not
    enabled. -/
theorem supplier_eq_none {b : Block} {slot : String} {connected : Option Resolved}
    (h : g.supplier b slot connected = .ok none) :
    ∀ child, connected = some child → child.block.enabled = false := by
  obtain ⟨kind, hkind, h⟩ := bind_eq_ok.mp h
  split at h
  · split at h
    · next hnone =>
      intro child hchild
      simpa [hchild, Option.filter] using hnone
    · obtain ⟨spec, -, h⟩ := bind_eq_ok.mp h
      split at h
      · cases h
      · split at h <;> cases h
  · cases h

/-- A spliced fragment is an expression, with parentheses if it needs them. -/
theorem splice_eq_ok {outer : Order} {default code : String} {child : Block} {f : Fragment}
    (h : splice outer default child f = .ok code) :
    ∃ text order, f = .expression text order ∧
      ((text = "" ∧ code = default) ∨
        (text ≠ "" ∧ order.needsParens outer = true ∧ code = "(" ++ text ++ ")") ∨
        (text ≠ "" ∧ order.needsParens outer = false ∧ code = text)) := by
  cases f with
  | statement text => cases h
  | expression text order =>
    refine ⟨text, order, rfl, ?_⟩
    simp only [splice, String.isEmpty_iff] at h
    split at h
    · next hempty => cases h; exact .inl ⟨hempty, rfl⟩
    · next hempty =>
      split at h
      · next hparens => cases h; exact .inr (.inl ⟨hempty, hparens, rfl⟩)
      · next hparens => cases h; exact .inr (.inr ⟨hempty, by simpa using hparens, rfl⟩)

/-! ## Chains and bodies -/

/-- The code of a chain that may be absent. -/
def chainCode (first : Option Resolved) (attached : Bool) : Generation String :=
  match first with
  | none => pure ""
  | some r => r.chain attached

/-- The code of a block alone, if it stands in a chain. -/
def ownCode (b : Block) (emitted : Generation Fragment) : Generation String :=
  if b.enabled then emitted >>= fun f => Generation.check (statementOf b f) else pure ""

/-- A block in a chain is checked and, if it is enabled, emitted, and then comes the
    chain behind it. -/
theorem link_eq (b : Block) (emitted : Generation Fragment) (next : Option Resolved)
    (attached : Bool) :
    g.link b emitted next attached =
      Generation.check (g.checkLink b attached) >>= fun _ =>
        ownCode b emitted >>= fun code =>
          chainCode next true >>= fun more => pure (code ++ more) := by
  unfold link ownCode chainCode
  cases next with
  | none => cases b.enabled <;> simp
  | some follower => cases b.enabled <;> simp

/-- A body is a chain that is attached to its block, one level deeper. -/
theorem bodyOf_eq (b : Block) (slot : String) (connected : Option Resolved) :
    g.bodyOf b slot connected =
      Generation.check (g.slotKind b slot) >>= fun kind =>
        match kind with
        | .body => chainCode connected true >>= fun code => pure (Text.indentLines g.indent code)
        | _ => throw (unknownSlot b slot) := by
  unfold bodyOf chainCode
  cases connected with
  | none => rfl
  | some first => rfl

/-! ## Invariants of a pass -/

/-- A value in its place is the default if nothing supplies it, and else it is
    spliced from what its supplier emits. -/
theorem ensures_valueOf (emission : Resolved → Fragment → Prop) {b : Block} {slot : String}
    {outer : Order} {default : String} {connected : Option Resolved}
    (h : ∀ child, g.supplier b slot connected = .ok (some child) →
      Generation.Ensures inv (emission child) child.emitted) :
    Generation.Ensures inv
      (fun code => (g.supplier b slot connected = .ok none ∧ code = default) ∨
        ∃ child f, g.supplier b slot connected = .ok (some child) ∧ emission child f ∧
          splice outer default child.block f = .ok code)
      (g.valueOf b slot outer default connected) := by
  refine Generation.Ensures.check.bind fun supplied hsupplied => ?_
  cases supplied with
  | none => exact .pure (.inl ⟨hsupplied, rfl⟩)
  | some child =>
    refine (h child hsupplied).bind fun f hf => Generation.Ensures.check.mono fun code hcode => ?_
    exact .inr ⟨child, f, hsupplied, hf, hcode⟩

/-- The statements in a slot are none if nothing is connected, and else the
    lines of a chain one level deeper. -/
theorem ensures_bodyOf (text : Resolved → String → Prop) {b : Block} {slot : String}
    {connected : Option Resolved}
    (h : ∀ first, connected = some first →
      Generation.Ensures inv (text first) (first.chain true)) :
    Generation.Ensures inv
      (fun code => (connected = none ∧ code = "") ∨
        ∃ first lines, connected = some first ∧ text first lines ∧
          code = Text.indentLines g.indent lines)
      (g.bodyOf b slot connected) := by
  refine Generation.Ensures.check.bind fun kind hkind => ?_
  split
  · cases hconnected : connected with
    | none => exact .pure (.inl ⟨rfl, rfl⟩)
    | some first =>
      refine (h first hconnected).bind fun lines hlines => .pure (.inr ?_)
      exact ⟨first, lines, rfl, hlines, rfl⟩
  · exact .throw

/-- An emission keeps an invariant that the allowed operations and all reports
    keep, and its fragment is as the emitter's contract promises, if the answers
    of the generator are as the contract says. -/
theorem ensures_emitted (k : Contract) {b : Block} {post : Fragment → Prop}
    (value : ∀ slot outer default, k.asks slot outer default →
      Generation.Ensures inv (k.value slot outer default)
        (g.valueOf b slot outer default ((b.input? slot).map g.resolve)))
    (body : ∀ slot,
      Generation.Ensures inv (k.body slot) (g.bodyOf b slot ((b.input? slot).map g.resolve)))
    (text : ∀ slot t, g.fieldText b slot = .ok t → k.text slot t)
    (number : ∀ slot x, g.fieldNumber b slot = .ok x → k.number slot x)
    (recorded : ∀ pass, inv pass → k.recorded pass.context.recorded)
    (perform : ∀ operation, k.does operation → ∀ pass, inv pass → inv (pass.perform operation).2)
    (report : ∀ event pass, inv pass → inv (pass.report event))
    (meets : ∀ emitter, Dictionary.get? g.emitters b.type = some emitter →
      (emitter b g.indent).Meets k post) :
    Generation.Ensures inv post (g.resolve b).emitted := by
  have keeps : ∀ query, k.allows query → ∀ pass, inv pass →
      inv ((g.answer b (Dictionary.mapValues g.resolve b.inputs) query).run pass).2 ∧
        k.admits query
          ((g.answer b (Dictionary.mapValues g.resolve b.inputs) query).run pass).1 := by
    intro query hquery pass hpass
    cases query with
    | value slot outer default =>
      simp only [answer, get?_resolved]
      exact value slot outer default hquery pass hpass
    | body slot =>
      simp only [answer, get?_resolved]
      exact body slot pass hpass
    | fieldText slot => exact ⟨hpass, fun t ht => text slot t ht⟩
    | fieldNumber slot => exact ⟨hpass, fun x hx => number slot x hx⟩
    | recorded => exact ⟨hpass, recorded pass hpass⟩
    | context operation => exact ⟨perform operation hquery pass hpass, trivial⟩
    | report event => exact ⟨report event pass hpass, trivial⟩
  rw [resolve_emitted]
  unfold emit
  split
  · exact .throw
  · next emitter found =>
    intro pass hpass
    exact Program.Meets.run keeps (meets emitter found) (report _ pass hpass)

/-- A chain ensures of its text what holds of the code of its first block
    alone, of no code, and of code put in front of more code. -/
theorem ensures_link (statement : String → Prop) (none : statement "")
    (append : ∀ code more, statement code → statement more → statement (code ++ more))
    {b : Block} {emitted : Generation Fragment} {next : Option Resolved}
    (hemitted : Generation.Ensures inv (fun f => ∀ code, f = .statement code → statement code)
      emitted)
    (hnext : ∀ follower, next = some follower →
      Generation.Ensures inv statement (follower.chain true)) (attached : Bool) :
    Generation.Ensures inv statement (g.link b emitted next attached) := by
  have own : Generation.Ensures inv statement (ownCode b emitted) := by
    unfold ownCode
    split
    · refine hemitted.bind fun f hf => Generation.Ensures.check.mono fun code hcode => ?_
      cases f with
      | expression text order => cases hcode
      | statement text => cases hcode; exact hf _ rfl
    · exact .pure none
  have behind : Generation.Ensures inv statement (chainCode next true) := by
    cases next with
    | none => exact .pure none
    | some follower => exact hnext follower rfl
  rw [link_eq]
  refine Generation.Ensures.check.bind fun _ _ => own.bind fun code hcode => ?_
  exact behind.bind fun more hmore => .pure (append code more hcode hmore)

/-- If the emission of a block ensures `P` of its fragment whenever the blocks
    in its inputs do, then it does so for every block, and every chain ensures
    of its text what `P` says of statements. -/
theorem ensures_resolve (P : Block → Fragment → Prop) (statement : String → Prop)
    (none : statement "")
    (append : ∀ code more, statement code → statement more → statement (code ++ more))
    (of_fragment : ∀ b code, P b (.statement code) → statement code)
    (step : ∀ b : Block, (∀ slot child, b.input? slot = some child →
        Generation.Ensures inv (P child) (g.resolve child).emitted ∧
          Generation.Ensures inv statement ((g.resolve child).chain true)) →
      Generation.Ensures inv (P b) (g.resolve b).emitted) (b : Block) :
    Generation.Ensures inv (P b) (g.resolve b).emitted ∧
      ∀ attached, Generation.Ensures inv statement ((g.resolve b).chain attached) := by
  induction b using Block.tree_induction with
  | step b inputs next =>
    have emitted : Generation.Ensures inv (P b) (g.resolve b).emitted :=
      step b fun slot child hchild =>
        ⟨(inputs slot child hchild).1, (inputs slot child hchild).2 true⟩
    refine ⟨emitted, fun attached => ?_⟩
    rw [resolve_chain]
    refine g.ensures_link statement none append ?_ ?_ attached
    · exact emitted.mono fun f hf code hcode => of_fragment b code (hcode ▸ hf)
    · intro follower hfollower
      obtain ⟨c, hc, rfl⟩ := Option.map_eq_some_iff.mp hfollower
      exact (next c hc).2 true

/-- The pieces of a pass ensure what a chain ensures of its text and a value of
    its line. -/
theorem ensures_topLevels (statement : String → Prop) (none : statement "") {w : Workspace}
    (hemitted : ∀ b : Block, Generation.Ensures inv
      (fun f => match f with
        | .expression code _ => statement (code ++ "\n")
        | .statement code => statement code) (g.resolve b).emitted)
    (hchain : ∀ b : Block, Generation.Ensures inv statement ((g.resolve b).chain false)) :
    Generation.Ensures inv (fun chunks => ∀ code ∈ chunks, statement code) (g.topLevels w) := by
  refine .mapM fun b _ => Generation.Ensures.check.bind fun spec _ => ?_
  split
  · split
    · refine .bind (hemitted _) fun f hf => ?_
      cases f with
      | expression code order => exact .pure hf
      | statement code => exact .pure hf
    · exact .pure none
  · exact hchain b

/-- A script is what finalising gives for the pieces of a pass. -/
theorem generate_eq (w : Workspace) :
    g.generate w =
      match (g.topLevels w).run.run ⟨Context.withIndent g.indent, []⟩ with
      | (.error e, _) => .error e
      | (.ok chunks, pass) => .ok (pass.context.finalize (joinChunks chunks)).1 := by
  unfold generate generateWith Generation.outcome
  obtain ⟨result, pass⟩ := (g.topLevels w).run.run ⟨Context.withIndent g.indent, []⟩
  cases result <;> rfl

/-- A script is finalised from pieces and a context as the pass ensures them. -/
theorem exists_of_generate_eq_ok {post : List String → Prop} {w : Workspace} {script : String}
    (hpass : Generation.Ensures inv post (g.topLevels w))
    (hstart : inv ⟨Context.withIndent g.indent, []⟩) (h : g.generate w = .ok script) :
    ∃ chunks pass, post chunks ∧ inv pass ∧
      script = (pass.context.finalize (joinChunks chunks)).1 := by
  obtain ⟨hinv, hpost⟩ := hpass _ hstart
  rw [generate_eq] at h
  generalize (g.topLevels w).run.run ⟨Context.withIndent g.indent, []⟩ = ended at h hinv hpost
  obtain ⟨result, pass⟩ := ended
  cases result with
  | error e => cases h
  | ok chunks => exact ⟨chunks, pass, hpost chunks rfl, hinv, (Except.ok.inj h).symm⟩

end Generator

end PollScript
