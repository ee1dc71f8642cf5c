import PollScript.Registry
import PollScript.Script.Emitter
import PollScript.Script.Literal
import PollScript.Decimal.Numeral
import PollScript.Text.Lines

/-!
# The generator

A generator turns workspaces into scripts. It has the block types, an emitter
for each of them, and a unit of indentation.

A pass goes down the block graph. For each block there is a `Resolved` block,
which emits the block itself and the chain that it begins, and which is built
from the resolved blocks of its inputs. An emitter asks for slots by name. The
generator checks what is connected there, and only then has it emitted.

Results:

* `resolve_eq`: a resolved block is made of the resolved blocks in its inputs
  and after it.
* `recorded_generateWith`: a pass leaves its context empty.
-/

namespace PollScript

open Script

/-- Block types with an emitter for each of them. -/
structure Generator where
  registry : Registry
  emitters : List (String × Emitter)
  indent : String

/-- The state of a pass. -/
structure Pass where
  context : Context
  events : List Event

namespace Pass

/-- A pass with one more event. -/
def report (pass : Pass) (event : Event) : Pass :=
  { pass with events := pass.events ++ [event] }

/-- What an operation on the context gives, and the pass after it. -/
def perform (pass : Pass) (operation : Context.Operation) : operation.Answer × Pass :=
  let (result, context) := pass.context.apply operation
  (result, { pass with context })

end Pass

/-- A computation during a pass. It may fail, and even then the state of the
    pass is what it was made to be. -/
abbrev Generation := ExceptT GenerateError (StateM Pass)

/-- What came of a computation. -/
structure Outcome (α : Type) where
  result : Except GenerateError α
  context : Context
  events : List Event

namespace Generation

/-- Takes over a result that needs no state. -/
def check {α : Type} : Except GenerateError α → Generation α
  | .ok a => pure a
  | .error e => throw e

/-- Reports an event. -/
def report (event : Event) : Generation Unit :=
  modify (·.report event)

/-- Runs a computation on a context. -/
def outcome {α : Type} (x : Generation α) (context : Context) : Outcome α :=
  let (result, pass) := x.run.run ⟨context, []⟩
  ⟨result, pass.context, pass.events⟩

end Generation

/-- A block with what can be had from it. -/
structure Resolved where
  block : Block
  emitted : Generation Fragment
  /-- Emits the chain that the block begins, which may be attached to
      something before it. -/
  chain : (attached : Bool) → Generation String

namespace Generator

variable (g : Generator)

/-! ## Block types and slots -/

/-- The type of a block (`spec_of`). -/
def specOf (b : Block) : Except GenerateError BlockSpec :=
  match g.registry.get? b.type with
  | some spec => .ok spec
  | none => .error (.unknownBlockType b.id b.type)

/-- The error of a slot that a block's type does not have. -/
def unknownSlot (b : Block) (slot : String) : GenerateError :=
  .unknownSlot b.id b.type slot

/-- What a slot of a block is for (`slot_kind`). -/
def slotKind (b : Block) (slot : String) : Except GenerateError SlotKind := do
  match (← g.specOf b).slot? slot with
  | some s => return s.kind
  | none => throw (unknownSlot b slot)

/-! ## Fields -/

/-- A number between its bounds, as far as they are given. Of a number and an
    equal bound the bound is taken, which tells the two zeros apart. A bound that
    is not comparable to the number does not restrict it. -/
def clamp (value : Float) (least greatest : Option Float) : Float :=
  let raised := match least with
    | some least => if value ≤ least then least else value
    | none => value
  match greatest with
  | some greatest => if greatest ≤ raised then greatest else raised
  | none => raised

/-- The number that a field holds, or else the default. -/
def readNumber (b : Block) (slot : String) (default : Float) : Except GenerateError Float :=
  match b.field? slot with
  | none => .ok default
  | some (.number x) => .ok x
  | some (.text s) =>
    match Decimal.read? (String.ofList (Text.trim s.toList)) with
    | some x => .ok x
    | none => .error (.invalidFieldValue b.id slot ("'" ++ s ++ "' is not a number"))

/-- The number in a number field, between the bounds of the slot
    (`field_number`). -/
def fieldNumber (b : Block) (slot : String) : Except GenerateError Float := do
  match ← g.slotKind b slot with
  | .number default least greatest =>
    let value ← readNumber b slot default
    if value.isFinite then return clamp value least greatest
    else throw (.invalidFieldValue b.id slot
      ("'" ++ Decimal.display value ++ "' is not a finite number"))
  | _ => throw (unknownSlot b slot)

/-- The choice of a dropdown: one of its options, and the first one unless
    something is chosen. -/
def chosen (b : Block) (slot : String) (options : List (String × String)) :
    Except GenerateError String :=
  match b.field? slot with
  | none => .ok ((options.head?.map (·.2)).getD "")
  | some value =>
    if options.any (·.2 == value.display) then .ok value.display
    else .error (.invalidFieldValue b.id slot
      ("'" ++ value.display ++ "' is not one of [" ++
        ", ".intercalate (options.map (·.2)) ++ "]"))

/-- The text of a field: a text or a choice as it stands, and a number as a
    literal (`field_text`). -/
def fieldText (b : Block) (slot : String) : Except GenerateError String := do
  match ← g.slotKind b slot with
  | .text default => return ((b.field? slot).map FieldValue.display).getD default
  | .dropdown options => chosen b slot options
  | .number .. => return number (← g.fieldNumber b slot)
  | _ => throw (unknownSlot b slot)

/-! ## Connections -/

/-- The block that gives the value of a slot: the connected one if it is
    enabled. It must be of a type whose output fits. -/
def supplier (b : Block) (slot : String) (connected : Option Resolved) :
    Except GenerateError (Option Resolved) := do
  match ← g.slotKind b slot with
  | .value check =>
    match connected.filter (·.block.enabled) with
    | none => return none
    | some child =>
      match (← g.specOf child.block).output with
      | none => throw (.notAValueBlock child.block.id child.block.type)
      | some output =>
        if output.fits check then return some child
        else throw (.incompatibleConnection b.id slot output.label
          (", ".intercalate (check.getD [])))
  | _ => throw (unknownSlot b slot)

/-- The code of a value in its place, with parentheses if it needs them. Empty
    code counts as no value. -/
def splice (outer : Order) (default : String) (child : Block) :
    Fragment → Except GenerateError String
  | .expression code order =>
    if code.isEmpty then .ok default
    else if order.needsParens outer then .ok ("(" ++ code ++ ")")
    else .ok code
  | .statement _ => .error (.notAValueBlock child.id child.type)

/-- The code of the value in a slot, given what can be had from the block in it
    (`value_to_code`). -/
def valueOf (b : Block) (slot : String) (outer : Order) (default : String)
    (connected : Option Resolved) : Generation String := do
  match ← Generation.check (g.supplier b slot connected) with
  | none => return default
  | some child => Generation.check (splice outer default child.block (← child.emitted))

/-- The code of the statements in a slot, one level deeper, given what can be
    had from the first of them (`statement_to_code`). -/
def bodyOf (b : Block) (slot : String) (connected : Option Resolved) : Generation String := do
  match ← Generation.check (g.slotKind b slot) with
  | .body =>
    match connected with
    | some first => return Text.indentLines g.indent (← first.chain true)
    | none => return ""
  | _ => throw (unknownSlot b slot)

/-! ## Emission -/

/-- Answers the questions of a block's emitter. -/
def answer (b : Block) (inputs : List (String × Resolved)) :
    (query : Query) → StateM Pass query.Answer
  | .value slot outer default =>
    (g.valueOf b slot outer default (Dictionary.get? inputs slot)).run
  | .body slot => (g.bodyOf b slot (Dictionary.get? inputs slot)).run
  | .fieldText slot => pure (g.fieldText b slot)
  | .fieldNumber slot => pure (g.fieldNumber b slot)
  | .recorded => do return (← get).context.recorded
  | .context operation => modifyGet (·.perform operation)
  | .report event => modify (·.report event)

/-- Emits a block by the program of its emitter (`emit_block`). -/
def emit (b : Block) (inputs : List (String × Resolved)) : Generation Fragment :=
  match Dictionary.get? g.emitters b.type with
  | none => throw (.unknownBlockType b.id b.type)
  | some emitter => do
    Generation.report (.emitting b.id b.type)
    ExceptT.mk ((emitter b g.indent).run.run (g.answer b inputs))

/-- Checks that a block may stand where it does in a chain. -/
def checkLink (b : Block) (attached : Bool) : Except GenerateError Unit := do
  let spec ← g.specOf b
  if spec.isValueBlock then throw (.notAStatementBlock b.id b.type)
  if attached && !spec.followsOthers then throw (.noPreviousConnection b.id b.type)

/-- The code of a block as a statement. -/
def statementOf (b : Block) : Fragment → Except GenerateError String
  | .statement code => .ok code
  | .expression .. => .error (.notAStatementBlock b.id b.type)

/-- Emits a chain from a block on (`chain_to_code`). A disabled block is checked
    but not emitted. -/
def link (b : Block) (emitted : Generation Fragment) (next : Option Resolved)
    (attached : Bool) : Generation String := do
  Generation.check (g.checkLink b attached)
  let code ← if b.enabled then Generation.check (statementOf b (← emitted)) else pure ""
  match next with
  | none => return code
  | some follower => return code ++ (← follower.chain true)

mutual

/-- Resolves a block and all that is connected to it. -/
def resolve : Block → Resolved
  | ⟨id, type, enabled, fields, inputs, next⟩ =>
    let b : Block := ⟨id, type, enabled, fields, inputs, next⟩
    let emitted := g.emit b (resolveInputs inputs)
    { block := b, emitted, chain := g.link b emitted (resolveNext next) }

/-- Resolves the blocks in inputs. -/
def resolveInputs : List (String × Block) → List (String × Resolved)
  | [] => []
  | (name, b) :: rest => (name, resolve b) :: resolveInputs rest

/-- Resolves the block that follows, if there is one. -/
def resolveNext : Option Block → Option Resolved
  | none => none
  | some b => some (resolve b)

end

/-- Resolving inputs resolves each of them. -/
theorem resolveInputs_eq (inputs : List (String × Block)) :
    g.resolveInputs inputs = Dictionary.mapValues g.resolve inputs := by
  induction inputs with
  | nil => simp [resolveInputs, Dictionary.mapValues]
  | cons entry rest ih => simp_all [resolveInputs, Dictionary.mapValues]

/-- Resolving what follows resolves the block, if there is one. -/
theorem resolveNext_eq (next : Option Block) : g.resolveNext next = next.map g.resolve := by
  cases next <;> simp [resolveNext]

/-- A resolved block is made of the resolved blocks in its inputs and after
    it. -/
theorem resolve_eq (b : Block) :
    g.resolve b =
      { block := b
        emitted := g.emit b (Dictionary.mapValues g.resolve b.inputs)
        chain := g.link b (g.emit b (Dictionary.mapValues g.resolve b.inputs))
          (b.next.map g.resolve) } := by
  cases b; simp [resolve, resolveInputs_eq, resolveNext_eq]

/-! ## Single blocks -/

def emitBlock (b : Block) (context : Context) : Outcome Fragment :=
  (g.resolve b).emitted.outcome context

/-- The code of the value in a slot of a block. -/
def valueCode (b : Block) (slot : String) (outer : Order) (default : String)
    (context : Context) : Outcome String :=
  (g.valueOf b slot outer default ((b.input? slot).map g.resolve)).outcome context

/-- The code of the statements in a slot of a block. -/
def bodyCode (b : Block) (slot : String) (context : Context) : Outcome String :=
  (g.bodyOf b slot ((b.input? slot).map g.resolve)).outcome context

/-! ## Passes -/

/-- The code of a top-level block: a chain of statements, or a value that is
    computed for its effect (`top_level_to_code`). -/
def topLevel (top : Resolved) : Generation String := do
  let spec ← Generation.check (g.specOf top.block)
  if spec.isValueBlock then
    if top.block.enabled then
      match ← top.emitted with
      | .expression code _ => return code ++ "\n"
      | .statement code => return code
    else return ""
  else top.chain false

/-- The code of all top-level blocks, each with its own text. -/
def topLevels (w : Workspace) : Generation (List String) :=
  w.blocks.mapM fun b => g.topLevel (g.resolve b)

/-- The code of a pass: the texts that are not blank, with two empty lines
    between them (`top_level_chunks`). -/
def joinChunks (chunks : List String) : String :=
  "\n\n\n".intercalate (chunks.filter fun code => !Text.allBlank code.toList)

/-- Runs a pass with a context, which is empty again afterwards, whether the
    pass succeeds or fails (`generate_with`). -/
def generateWith (w : Workspace) (context : Context) : Outcome String :=
  let pass := (g.topLevels w).outcome context
  match pass.result with
  | .error e => ⟨.error e, pass.context.reset, pass.events⟩
  | .ok chunks =>
    let recorded := pass.context.recorded
    let (script, context) := pass.context.finalize (joinChunks chunks)
    ⟨.ok script, context, pass.events ++
      [.passFinished w.blocks.length recorded.tasks.length recorded.imports.length]⟩

/-- The script of a workspace, from a pass with a context of its own
    (`generate`). -/
def generate (w : Workspace) : Except GenerateError String :=
  (g.generateWith w (Context.withIndent g.indent)).result

/-- A pass that fails and one that succeeds both reset the context. -/
theorem generateWith_context (w : Workspace) (context : Context) :
    (g.generateWith w context).context = ((g.topLevels w).outcome context).context.reset := by
  unfold generateWith
  dsimp only
  split
  · rfl
  · next chunks _ => exact Context.finalize_snd (joinChunks chunks) _

/-- A pass leaves its context empty. -/
theorem recorded_generateWith (w : Workspace) (context : Context) :
    (g.generateWith w context).context.recorded = ⟨[], [], [], false⟩ := by
  rw [generateWith_context, Context.recorded_reset]

end Generator

end PollScript
