import PollScript.Proofs.BlockTree
import PollScript.Proofs.Standard

/-!
# Contents of disabled blocks

A pass asks of a disabled block only what it is: its id, its type, and what stands
after it in its chain. Nothing depends on its fields and on the blocks in its
inputs, not even the error that a pass ends with.

Results:

* `valueOf_some`: what is asked of a block in a socket.
* `emit_rewire`: the emission of a block depends on other blocks through the values
  and bodies in its slots only.
* `generate_mute`: without its contents, a disabled block gives the same result.
-/

namespace PollScript

open Script

/-! ## Blocks with other blocks around them -/

namespace Block

/-- The block with other blocks in its inputs and another one after it. -/
def rewire (b : Block) (inputs : List (String × Block)) (next : Option Block) : Block :=
  { b with inputs, next }

/-- The block without the contents of disabled blocks: neither it nor any block
    below or behind it has fields or inputs if it is disabled. -/
def mute : Block → Block :=
  Block.fold fun b inputs next =>
    if b.enabled then b.rewire inputs next else { b with fields := [], inputs := [], next }

theorem mute_of_enabled {b : Block} (enabled : b.enabled = true) :
    b.mute = b.rewire (Dictionary.mapValues mute b.inputs) (b.next.map mute) := by
  rw [mute, fold_eq, if_pos enabled]

theorem mute_of_disabled {b : Block} (disabled : b.enabled = false) :
    b.mute = { b with fields := [], inputs := [], next := b.next.map mute } := by
  rw [mute, fold_eq, if_neg (by simp [disabled])]

/-- What is left of a block is still the same block. -/
theorem mute_eq (b : Block) :
    b.mute.id = b.id ∧ b.mute.type = b.type ∧ b.mute.enabled = b.enabled ∧
      b.mute.next = b.next.map mute := by
  cases henabled : b.enabled with
  | true => rw [mute_of_enabled henabled]; exact ⟨rfl, rfl, henabled, rfl⟩
  | false => rw [mute_of_disabled henabled]; exact ⟨rfl, rfl, henabled, rfl⟩

end Block

/-- The workspace without the contents of disabled blocks. -/
def Workspace.mute (w : Workspace) : Workspace where
  blocks := w.blocks.map Block.mute

/-- What the emitter of a built-in type asks does not depend on the blocks around its
    own. -/
theorem emitter_rewire {e : Builtin} (h : e ∈ builtins) (b : Block)
    (inputs : List (String × Block)) (next : Option Block) (indent : String) :
    e.emitter (b.rewire inputs next) indent = e.emitter b indent := by
  simp only [builtins, List.mem_cons, List.not_mem_nil, or_false] at h
  rcases h with rfl | rfl | rfl | rfl | rfl | rfl | rfl | rfl | rfl | rfl | rfl | rfl | rfl |
    rfl | rfl | rfl
  all_goals rfl

namespace Generator

variable {g : Generator} {b c : Block} {slot default : String} {outer : Order}

/-! ## Values -/

/-- Checks that a block may stand in a slot for values. -/
def checkSocket (g : Generator) (b : Block) (slot : String) (child : Block) :
    Except GenerateError Unit := do
  match ← g.slotKind b slot with
  | .value check =>
    match (← g.specOf child).output with
    | none => throw (.notAValueBlock child.id child.type)
    | some output =>
      if output.fits check then return ()
      else throw (.incompatibleConnection b.id slot output.label
        (", ".intercalate (check.getD [])))
  | _ => throw (unknownSlot b slot)

theorem checkSocket_congr (hid : b.id = c.id) (htype : b.type = c.type) (parent : Block) :
    g.checkSocket parent slot b = g.checkSocket parent slot c := by
  unfold checkSocket specOf
  rw [hid, htype]

theorem splice_congr (hid : b.id = c.id) (htype : b.type = c.type) (f : Fragment) :
    splice outer default b f = splice outer default c f := by
  cases f with
  | expression code order => rfl
  | statement code => rw [splice, splice, hid, htype]

/-- A block in a socket counts as none if it is disabled. -/
theorem valueOf_of_disabled {child : Resolved} (disabled : child.block.enabled = false) :
    g.valueOf b slot outer default (some child) = g.valueOf b slot outer default none := by
  have hfilter : (some child).filter (·.block.enabled) = none := by
    simp [Option.filter, disabled]
  unfold valueOf supplier
  rw [hfilter]
  rfl

/-- An enabled block in a socket is checked, emitted, and spliced. -/
theorem valueOf_some {child : Resolved} (enabled : child.block.enabled = true) :
    g.valueOf b slot outer default (some child) =
      Generation.check (g.checkSocket b slot child.block) >>= fun _ =>
        child.emitted >>= fun f => Generation.check (splice outer default child.block f) := by
  have hfilter : (some child).filter (·.block.enabled) = some child := by
    simp [Option.filter, enabled]
  unfold valueOf supplier checkSocket
  rw [hfilter]
  cases g.slotKind b slot with
  | error e => rfl
  | ok kind =>
    cases kind with
    | value check =>
      dsimp only [bind, Except.bind]
      cases g.specOf child.block with
      | error e => rfl
      | ok spec =>
        dsimp only
        cases spec.output with
        | none => rfl
        | some output =>
          dsimp only
          cases output.fits check <;> rfl
    | _ => rfl

/-! ## Chains -/

/-- What is checked of a block in a chain depends on its id and its type only. -/
theorem checkLink_congr (hid : b.id = c.id) (htype : b.type = c.type) (attached : Bool) :
    g.checkLink b attached = g.checkLink c attached := by
  unfold checkLink specOf
  rw [hid, htype]

theorem statementOf_congr (hid : b.id = c.id) (htype : b.type = c.type) (f : Fragment) :
    statementOf b f = statementOf c f := by
  cases f with
  | statement code => rfl
  | expression code order => rw [statementOf, statementOf, hid, htype]

/-! ## Emissions -/

/-- What is in the fields of a block does not depend on the blocks around it. -/
theorem field_rewire (g : Generator) (b : Block) (inputs : List (String × Block))
    (next : Option Block) (slot : String) :
    g.fieldNumber (b.rewire inputs next) slot = g.fieldNumber b slot ∧
      g.fieldText (b.rewire inputs next) slot = g.fieldText b slot := by
  have hnumber : g.fieldNumber (b.rewire inputs next) slot = g.fieldNumber b slot := by
    simp only [fieldNumber, slotKind, specOf, readNumber, Block.field?, unknownSlot, Block.rewire]
  refine ⟨hnumber, ?_⟩
  unfold fieldText
  rw [hnumber]
  simp only [slotKind, specOf, chosen, Block.field?, unknownSlot, Block.rewire]

/-- The emission of a block depends on other blocks through the values and bodies in
    its slots only. -/
theorem emit_rewire (hplain : g.Plain) {inputs : List (String × Block)} {next : Option Block}
    (value : ∀ slot outer default,
      g.valueOf b slot outer default ((Dictionary.get? inputs slot).map g.resolve) =
        g.valueOf b slot outer default ((b.input? slot).map g.resolve))
    (body : ∀ slot, g.bodyOf b slot ((Dictionary.get? inputs slot).map g.resolve) =
      g.bodyOf b slot ((b.input? slot).map g.resolve)) :
    (g.resolve (b.rewire inputs next)).emitted = (g.resolve b).emitted := by
  have hanswer : g.answer (b.rewire inputs next) (Dictionary.mapValues g.resolve inputs) =
      g.answer b (Dictionary.mapValues g.resolve b.inputs) := by
    funext query
    cases query with
    | value slot outer default =>
      simp only [answer, Dictionary.get?_mapValues]
      exact congrArg ExceptT.run (value slot outer default)
    | body slot =>
      simp only [answer, Dictionary.get?_mapValues]
      exact congrArg ExceptT.run (body slot)
    | fieldText slot => rw [answer, answer, (g.field_rewire b inputs next slot).2]
    | fieldNumber slot => rw [answer, answer, (g.field_rewire b inputs next slot).1]
    | recorded => rfl
    | context operation => rfl
    | report event => rfl
  rw [resolve_emitted, resolve_emitted]
  unfold emit
  rcases hplain b.type with ⟨-, hemitter⟩ | ⟨e, he, -, -, hemitter⟩
  · rw [show (b.rewire inputs next).type = b.type from rfl, hemitter]
    rfl
  · rw [show (b.rewire inputs next).type = b.type from rfl, hemitter]
    dsimp only
    rw [emitter_rewire he, show (b.rewire inputs next).inputs = inputs from rfl, hanswer]
    rfl

/-! ## Muted blocks -/

/-- A muted block is emitted to the same code in a socket and in a chain. -/
def MutesTo (g : Generator) (b : Block) : Prop :=
  (b.enabled = true → (g.resolve b.mute).emitted = (g.resolve b).emitted) ∧
    (g.resolve b.mute).chain = (g.resolve b).chain

theorem valueOf_mute (child : Block) (h : g.MutesTo child) :
    g.valueOf b slot outer default (some (g.resolve child.mute)) =
      g.valueOf b slot outer default (some (g.resolve child)) := by
  obtain ⟨hid, htype, henabled, -⟩ := child.mute_eq
  cases hchild : child.enabled with
  | true =>
    have hmute : child.mute.enabled = true := henabled.trans hchild
    rw [valueOf_some (by rw [resolve_block, hmute]), valueOf_some (by rw [resolve_block, hchild]),
      resolve_block, resolve_block, h.1 hchild, checkSocket_congr hid htype]
    congr 1
    funext _
    congr 1
    funext f
    rw [splice_congr hid htype]
  | false =>
    have hmute : child.mute.enabled = false := henabled.trans hchild
    rw [valueOf_of_disabled (by rw [resolve_block, hmute]),
      valueOf_of_disabled (by rw [resolve_block, hchild])]

/-- Without the contents of disabled blocks, every block is emitted to the same code
    in a socket and in a chain. -/
theorem mutesTo (hplain : g.Plain) (b : Block) : g.MutesTo b := by
  induction b using Block.tree_induction with
  | step b inputs next =>
    -- only an enabled block keeps what is in it, and only such a block is emitted
    have emitted : b.enabled = true → (g.resolve b.mute).emitted = (g.resolve b).emitted := by
      intro henabled
      rw [Block.mute_of_enabled henabled]
      refine emit_rewire hplain (fun slot outer default => ?_) fun slot => ?_
      · rw [Dictionary.get?_mapValues, ← Block.input?]
        cases hinput : b.input? slot with
        | none => rfl
        | some child => exact valueOf_mute child (inputs slot child hinput)
      · rw [Dictionary.get?_mapValues, ← Block.input?]
        cases hinput : b.input? slot with
        | none => rfl
        | some child =>
          rw [bodyOf_eq, bodyOf_eq]
          simp only [Option.map_some, chainCode, (inputs slot child hinput).2]
    refine ⟨emitted, ?_⟩
    obtain ⟨hid, htype, henabled, hnext⟩ := b.mute_eq
    have hown : ownCode b.mute (g.resolve b.mute).emitted = ownCode b (g.resolve b).emitted := by
      unfold ownCode
      rw [henabled]
      by_cases hb : b.enabled = true
      · rw [if_pos hb, if_pos hb, emitted hb]
        congr 1
        funext f
        rw [statementOf_congr hid htype]
      · rw [if_neg hb, if_neg hb]
    have htail : chainCode (b.mute.next.map g.resolve) true =
        chainCode (b.next.map g.resolve) true := by
      rw [hnext]
      cases hfollower : b.next with
      | none => rfl
      | some follower => simp only [Option.map_some, chainCode, (next follower hfollower).2]
    funext attached
    rw [resolve_chain, resolve_chain, link_eq, link_eq, checkLink_congr hid htype, hown, htail]

theorem topLevel_mute (hplain : g.Plain) (b : Block) :
    g.topLevel (g.resolve b.mute) = g.topLevel (g.resolve b) := by
  obtain ⟨hid, htype, henabled, -⟩ := b.mute_eq
  obtain ⟨hemitted, hchain⟩ := mutesTo hplain b
  unfold topLevel specOf
  rw [resolve_block, resolve_block, hid, htype, henabled, hchain]
  by_cases hb : b.enabled = true
  · rw [hemitted hb]
  · simp only [hb, Bool.false_eq_true, if_false]

/-- Without the contents of disabled blocks, a workspace gives the same script or the
    same error. -/
theorem generate_mute (hplain : g.Plain) (w : Workspace) : g.generate w.mute = g.generate w := by
  have htop : g.topLevels w.mute = g.topLevels w := by
    unfold topLevels Workspace.mute
    rw [List.mapM_map]
    congr 1
    funext b
    exact topLevel_mute hplain b
  rw [generate_eq, generate_eq, htop]

end Generator

end PollScript
