import PollScript.Builder
import PollScript.Proofs.Arithmetic
import PollScript.Proofs.Walk

/-!
# Blocks for arithmetic

The emitter of an operator asks for its two operands with the order of the
operator, and puts the operator between them. A tree of such blocks, with
literals as its leaves, is emitted as the text of the `Formula` that it stands
for. So the text has one reading, in which chains of one level are taken from
the left. The value of the tree is that of the text if every chain in a right
operand may be opened to the left, and need not be otherwise.

Results:

* `emitBlock_formula`: a tree of operator blocks is emitted as the text of its
  formula, which has one reading, and in a faithful tree the value of the formula.
* `emitBlock_difference`: a difference in the right operand of another one is
  read as if it were in the left operand.
-/

namespace PollScript

open Script Arithmetic

/-! ## Running an emitter -/

theorem Generation.Settles.bind_ok {α β : Type} {x : Generation α} {f : α → Generation β}
    {mid : α → Prop} {post : β → Prop} (hx : x.Settles (.ok ()) mid)
    (hf : ∀ a, mid a → (f a).Settles (.ok ()) post) : (x >>= f).Settles (.ok ()) post :=
  hx.bind hf

namespace Generator

variable (g : Generator) {b : Block} {inputs : List (String × Resolved)} {α β : Type}

/-- Runs a part of an emitter's program for a block. -/
def ran (b : Block) (inputs : List (String × Resolved)) (x : Emit α) : Generation α :=
  ExceptT.mk (x.run.run (g.answer b inputs))

theorem ran_pure (a : α) : g.ran b inputs (pure a) = pure a :=
  rfl

/-- A sequence of an emitter is run as a sequence. -/
theorem ran_bind (x : Emit α) (f : α → Emit β) :
    g.ran b inputs (x >>= f) = g.ran b inputs x >>= fun a => g.ran b inputs (f a) := by
  funext pass
  show ((Program.bind x.run (ExceptT.bindCont f)).run (g.answer b inputs)).run pass =
    (g.ran b inputs x >>= fun a => g.ran b inputs (f a)).run.run pass
  rw [Program.run_bind, Generation.run_bind]
  show ((ExceptT.bindCont f ((g.ran b inputs x).run.run pass).1).run (g.answer b inputs)).run
    ((g.ran b inputs x).run.run pass).2 = _
  cases ((g.ran b inputs x).run.run pass).1 <;> rfl

theorem ran_value (slot : String) (outer : Order) (default : String) :
    g.ran b inputs (Emit.value slot outer default) =
      g.valueOf b slot outer default (Dictionary.get? inputs slot) := by
  funext pass
  generalize hx : g.valueOf b slot outer default (Dictionary.get? inputs slot) = x
  show ((Emit.check ((g.answer b inputs (.value slot outer default)).run pass).1).run.run
    (g.answer b inputs)).run ((g.answer b inputs (.value slot outer default)).run pass).2 =
      x.run.run pass
  have answered : (g.answer b inputs (.value slot outer default)).run pass = x.run.run pass := by
    rw [← hx, answer]
  rw [answered]
  obtain ⟨result, after⟩ := x.run.run pass
  cases result <;> rfl

end Generator

/-! ## Blocks that stand for formulas -/

/-- The emitter of an operator with its operands in two slots. -/
def Arithmetic.Operator.emitter (op : Operator) (left right default : String) : Emitter :=
  fun _ _ => do
    let l ← Emit.value left op.level.order default
    let r ← Emit.value right op.level.order default
    return .expression (l ++ " " ++ op.symbol ++ " " ++ r) op.level.order

namespace Generator

variable (g : Generator)

/-- In every pass the block is emitted as the fragment. -/
def Emits (b : Block) (f : Fragment) : Prop :=
  (g.resolve b).emitted.Settles (.ok ()) (· = f)

/-- The slot is a socket for values in which an enabled block is plugged, whose
    output fits. -/
structure Takes (b : Block) (slot : String) (child : Block) : Prop where
  plugged : b.input? slot = some child
  enabled : child.enabled = true
  /-- Its output fits the socket. -/
  fits : ∃ check spec output, g.slotKind b slot = .ok (.value check) ∧
    g.specOf child = .ok spec ∧ spec.output = some output ∧ output.fits check = true

/-- The block is the root of a tree of operator blocks for the formula. A leaf
    may be any block whose code is the literal. -/
inductive Stands : Block → Formula → Prop where
  | literal {b : Block} {n : Nat} (emits : g.Emits b (.expression (toString n) .atomic)) :
      Stands b (.literal n)
  | node {b l r : Block} {op : Operator} {left right default : String} {x y : Formula}
      (emitter : Dictionary.get? g.emitters b.type = some (op.emitter left right default))
      (takesLeft : g.Takes b left l) (standsLeft : Stands l x)
      (takesRight : g.Takes b right r) (standsRight : Stands r y) :
      Stands b (.node op x y)

variable {g}

theorem Takes.supplier {b child : Block} {slot : String} (h : g.Takes b slot child) :
    g.supplier b slot (some (g.resolve child)) = .ok (some (g.resolve child)) := by
  obtain ⟨check, spec, output, hkind, hspec, houtput, hfits⟩ := h.fits
  have taken : (some (g.resolve child)).filter (·.block.enabled) = some (g.resolve child) := by
    simp [Option.filter, h.enabled]
  unfold Generator.supplier
  rw [hkind]
  simp only [taken, resolve_block, hspec, bind, Except.bind, houtput, hfits, if_true]
  rfl

/-- The code of an operand in its place is that of the formula, between
    parentheses if it needs them. -/
theorem Takes.settles {b child : Block} {slot : String} (h : g.Takes b slot child)
    {t : Formula} (op : Operator) (default : String)
    (emits : g.Emits child (.expression t.code t.level.order)) :
    (g.valueOf b slot op.level.order default (some (g.resolve child))).Settles (.ok ())
      (· = t.spliced op t.code) := by
  have emission : g.valueOf b slot op.level.order default (some (g.resolve child)) =
      (g.resolve child).emitted >>= fun f =>
        Generation.check (splice op.level.order default child f) := by
    rw [valueOf, h.supplier]
    show ((g.resolve child).emitted >>= fun f =>
      Generation.check (splice op.level.order default (g.resolve child).block f)) = _
    rw [resolve_block]
  have spliced : splice op.level.order default child (.expression t.code t.level.order) =
      .ok (t.spliced op t.code) := by
    have nonempty : t.code.isEmpty = false := by
      simpa [String.isEmpty_iff] using t.code_ne_empty
    rw [splice, nonempty, Formula.spliced, Formula.needsParens]
    cases t.level.order.needsParens op.level.order <;> rfl
  rw [emission]
  refine emits.bind_ok fun f hf => ?_
  rw [hf, spliced]
  exact .pure rfl

/-- A block that stands for a formula is emitted as the text of the formula. -/
theorem Stands.emits {b : Block} {t : Formula} (h : g.Stands b t) :
    g.Emits b (.expression t.code t.level.order) := by
  induction h with
  | literal emits => exact emits
  | @node b l r op left right default x y emitter takesLeft _ takesRight _ hleft hright =>
    have program : (g.resolve b).emitted =
        Generation.report (.emitting b.id b.type) >>= fun _ =>
          g.ran b (Dictionary.mapValues g.resolve b.inputs)
            (op.emitter left right default b g.indent) := by
      rw [resolve_emitted, emit, emitter]
      rfl
    have operand (slot : String) (child : Block) (takes : g.Takes b slot child) :
        g.ran b (Dictionary.mapValues g.resolve b.inputs)
            (Emit.value slot op.level.order default) =
          g.valueOf b slot op.level.order default (some (g.resolve child)) := by
      rw [ran_value, get?_resolved, takes.plugged, Option.map_some]
    unfold Emits
    rw [program, Operator.emitter]
    simp only [ran_bind, ran_pure, operand left l takesLeft, operand right r takesRight]
    have reported : (Generation.report (.emitting b.id b.type)).Settles (.ok ()) fun _ => True :=
      fun _ => ⟨rfl, fun _ _ => trivial⟩
    refine reported.bind_ok fun _ _ => ?_
    refine (takesLeft.settles op default hleft).bind_ok fun left hleft => ?_
    refine (takesRight.settles op default hright).bind_ok fun right hright => ?_
    rw [hleft, hright]
    exact .pure rfl

theorem Emits.emitBlock {b : Block} {f : Fragment} (h : g.Emits b f) (context : Context) :
    (g.emitBlock b context).result = .ok f := by
  obtain ⟨hverdict, hresult⟩ := h ⟨context, []⟩
  obtain ⟨f', hf'⟩ := verdict_eq_ok_iff.mp hverdict
  have same := hresult f' hf'
  rw [same] at hf'
  exact hf'

/-- A tree of operator blocks is emitted, whatever the context, as the text of its
    formula. That text has one reading, in which every chain of one level is taken
    from the left, and it evaluates to the value of that reading alone. If all
    chains in right operands may be opened to the left, that is the value of the
    formula. -/
theorem emitBlock_formula {b : Block} {t : Formula} (h : g.Stands b t) (context : Context) :
    (g.emitBlock b context).result = .ok (.expression t.code t.level.order) ∧
      (∀ v, Evaluates t.code v ↔ t.leftFirst.value = some v) ∧
      (t.Faithful → ∀ v, Evaluates t.code v ↔ t.value = some v) := by
  refine ⟨h.emits.emitBlock context, evaluates_code t, fun faithful v => ?_⟩
  rw [evaluates_code, Formula.value_leftFirst faithful]

end Generator

/-! ## A calculator

A generator with a block type for each operator and one for literals, and a block
tree for every formula. -/

namespace Arithmetic

/-- The name of the operator's block type. -/
def Operator.type : Operator → String
  | plus => "plus"
  | minus => "minus"
  | times => "times"
  | quotient => "quotient"

/-- A type of value blocks with the slots. -/
def valueSpec (type message : String) (slots : List Slot) : BlockSpec where
  type
  message
  slots
  output := some .any
  followsOthers := false
  othersFollow := false
  colour := 0
  tooltip := ""
  helpUrl := ""

/-- The block type of literals. -/
def literalSpec : BlockSpec :=
  valueSpec "literal" "%1" [⟨"DIGITS", .text "0"⟩]

/-- The block type of an operator. -/
def Operator.spec (op : Operator) : BlockSpec :=
  valueSpec op.type "%1 %2" [⟨"LEFT", .value none⟩, ⟨"RIGHT", .value none⟩]

/-- The emitter of literals. -/
def literalEmitter : Emitter :=
  fun _ _ => do return .expression (← Emit.fieldText "DIGITS") .atomic

/-- The emitter of an operator's block type. -/
def Operator.slotEmitter (op : Operator) : Emitter :=
  op.emitter "LEFT" "RIGHT" "0"

/-- The operators. -/
def Operator.all : List Operator := [plus, minus, times, quotient]

/-- The generator. -/
def calculator : Generator where
  registry := ⟨literalSpec :: Operator.all.map Operator.spec⟩
  emitters := ("literal", literalEmitter) :: Operator.all.map fun op => (op.type, op.slotEmitter)
  indent := Context.defaultIndent

/-- It is built from its block types and emitters. -/
theorem build_calculator :
    Builder.build ⟨calculator.registry.specs, calculator.emitters, [], calculator.indent⟩ =
      .ok calculator := by
  rfl

/-- A block tree for the formula. -/
def Formula.block (id : String) : Formula → Block
  | literal n => ⟨id, "literal", true, [("DIGITS", .text (toString n))], [], none⟩
  | node op left right =>
    ⟨id, op.type, true, [],
      [("LEFT", left.block (id ++ "l")), ("RIGHT", right.block (id ++ "r"))], none⟩

theorem takes_block {b : Block} {slot id : String} {t : Formula}
    (plugged : b.input? slot = some (t.block id))
    (socket : calculator.slotKind b slot = .ok (.value none)) :
    calculator.Takes b slot (t.block id) := by
  refine ⟨plugged, by cases t <;> rfl, none, ?_⟩
  cases t with
  | literal n => exact ⟨literalSpec, .any, socket, rfl, rfl, rfl⟩
  | node op left right => exact ⟨op.spec, .any, socket, by cases op <;> rfl, rfl, rfl⟩

/-- The block tree of a formula stands for it. -/
theorem stands_block (id : String) (t : Formula) : calculator.Stands (t.block id) t := by
  induction t generalizing id with
  | literal n =>
    refine .literal fun pass => ⟨rfl, fun f hf => ?_⟩
    cases hf
    rfl
  | node op left right hleft hright =>
    have emitter : Dictionary.get? calculator.emitters op.type = some op.slotEmitter := by
      cases op <;> rfl
    refine .node emitter (takes_block rfl ?_) (hleft _) (takes_block rfl ?_) (hright _)
    all_goals cases op <;> rfl

end Arithmetic

namespace Generator

/-- In `(7 - 2) * 3 + (4 + 5)` the chain `4 + 5` may be opened to the left. -/
theorem emitBlock_formula_faithful :
    let t : Formula := .node .plus
      (.node .times (.node .minus (.literal 7) (.literal 2)) (.literal 3))
      (.node .plus (.literal 4) (.literal 5))
    (calculator.emitBlock (t.block "b") (Context.withIndent "")).result =
        .ok (.expression "(7 - 2) * 3 + 4 + 5" .additive) ∧
      t.Faithful ∧ t.value = some 24 ∧ Evaluates "(7 - 2) * 3 + 4 + 5" 24 := by
  intro t
  have faithful : t.Faithful := by
    refine ⟨⟨⟨trivial, trivial, nofun⟩, trivial, nofun⟩, ⟨trivial, trivial, nofun⟩, ?_⟩
    exact fun _ => .inl rfl
  obtain ⟨hresult, -, hvalue⟩ := emitBlock_formula (stands_block "b" t) (Context.withIndent "")
  have code : t.code = "(7 - 2) * 3 + 4 + 5" := by decide
  rw [code] at hresult hvalue
  exact ⟨hresult, faithful, rfl, (hvalue faithful 24).mpr rfl⟩

/-- The blocks of `1 - (2 - 3)` are emitted without parentheses, so Python takes `2`
    from `1` first, and the text does not evaluate to the value of the blocks. -/
theorem emitBlock_difference :
    let t : Formula := .node .minus (.literal 1) (.node .minus (.literal 2) (.literal 3))
    calculator.Stands (t.block "b") t ∧ t.value = some 2 ∧
      (calculator.emitBlock (t.block "b") (Context.withIndent "")).result =
        .ok (.expression "1 - 2 - 3" .additive) ∧
      Evaluates "1 - 2 - 3" (-4) ∧ ¬ Evaluates "1 - 2 - 3" 2 := by
  intro t
  have stands := stands_block "b" t
  have code : t.code = "1 - 2 - 3" := by decide
  have emitted := stands.emits.emitBlock (Context.withIndent "")
  have evaluates := evaluates_code t
  rw [code] at emitted evaluates
  refine ⟨stands, rfl, emitted, (evaluates _).mpr rfl, fun h => ?_⟩
  exact absurd ((evaluates 2).mp h) (by decide)

end Generator

end PollScript
