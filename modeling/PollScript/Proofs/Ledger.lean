import PollScript.Proofs.Cumulative
import PollScript.Proofs.Live
import PollScript.Proofs.Standard

/-!
# What a pass records

Three things are recorded during a pass and never taken back: which blocks are
emitted, which import lines are needed and which helper definitions. Each block
adds to these records by its type alone, and before the blocks in its inputs do.
So the records of a pass follow from the list of its live blocks.

Results:

* `Program.Leads.run`: what follows from the moves that the questions of a program
  make holds when the program is run.
* `gathers_builtins`: the emitter of every built-in type requests what the type
  needs, and then asks for the slots of the type.
* `adds_topLevels`: a pass that succeeds has recorded its live blocks.
-/

namespace PollScript

open Script

/-! ## Programs that move a state -/

namespace Script.Program

variable {α ρ : Type} {moves : (query : Query) → ρ → query.Answer → ρ → Prop}

/-- From a state, and as long as each question moves the state as `moves` allows,
    the program ends with a result and a state that satisfy `post`. -/
def Leads (moves : (query : Query) → ρ → query.Answer → ρ → Prop) (post : α → ρ → Prop) :
    Program α → ρ → Prop
  | .done result, s => post result s
  | .ask query next, s => ∀ answer s', moves query s answer s' → (next answer).Leads moves post s'

theorem Leads.mono {mid post : α → ρ → Prop} {p : Program α} {s : ρ} (h : p.Leads moves mid s)
    (himp : ∀ a s', mid a s' → post a s') : p.Leads moves post s := by
  induction p generalizing s with
  | done result => exact himp _ _ h
  | ask query next ih => exact fun answer s' moved => ih answer (h answer s' moved)

/-- A sequence goes on from where its first part leads. -/
theorem Leads.bind {β : Type} {mid : α → ρ → Prop} {post : β → ρ → Prop} {p : Program α}
    {f : α → Program β} {s : ρ} (h : p.Leads moves mid s)
    (hf : ∀ a s', mid a s' → (f a).Leads moves post s') : (p.bind f).Leads moves post s := by
  induction p generalizing s with
  | done result => exact hf _ _ h
  | ask query next ih => exact fun answer s' moved => ih answer (h answer s' moved)

/-- If the answers move what is seen of a state as `moves` allows, then so does a
    program that is run with them. -/
theorem Leads.run {σ : Type} {view : σ → ρ} {answer : (query : Query) → StateM σ query.Answer}
    (tracks : ∀ query s,
      moves query (view s) ((answer query).run s).1 (view ((answer query).run s).2))
    {post : α → ρ → Prop} {p : Program α} {s : σ} (h : p.Leads moves post (view s)) :
    post ((p.run answer).run s).1 (view ((p.run answer).run s).2) := by
  induction p generalizing s with
  | done result => exact h
  | ask query next ih => exact ih _ (h _ _ (tracks query s))

end Script.Program

/-! ## The needs of a block type -/

/-- The key and the line of an import from a module. -/
def importFrom (moduleName name : String) : String × String :=
  (name, "from " ++ moduleName ++ " import " ++ name)

/-- The imports that the code of a block needs, by its type. -/
def neededImports : (type : String) → List (String × String)
  | "RTU_config" => [importFrom "connection_type" "RTUConfig"]
  | "ASCII_config" => [importFrom "connection_type" "ASCIIConfig"]
  | "TCP_config" => [importFrom "connection_type" "TCPConfig"]
  | "modbus_pull_data" => [importFrom "poll" "pull_data_async"]
  | "set_modbus_interval" => [importFrom "poll" "set_interval_frequency"]
  | "modbus_task_definition" =>
    [("asyncio", "import asyncio"), importFrom "poll" "set_interval_frequency"]
  | "modbus_get_limiter" => [importFrom "dcp" "get_limiter"]
  | "modbus_dcp_update" => [importFrom "dcp" "dcp_update"]
  | "modbus_log" => [("logging", "import logging")]
  | _ => []

/-- The helper definitions that the code of a block needs, by its type. -/
def neededHelpers (indent : String) : (type : String) → List (String × String)
  | "modbus_alarm_evaluator" => [(Alarm.helperName, Alarm.helperDefinition indent)]
  | "modbus_log" => [("logging_config", Emitters.loggingSetup indent)]
  | _ => []

/-! ## The ledger -/

/-- The block and its type, if the event is an emission. -/
def Event.emission? : Event → Option (String × String)
  | .emitting block type => some (block, type)
  | _ => none

/-- What is recorded during a pass and never taken back: the blocks emitted, by id and type,
    and the imports and helpers that are kept, with their keys. -/
structure Ledger where
  emitted : List (String × String)
  imports : List (String × String)
  helpers : List (String × String)

/-- What a pass has recorded. -/
def Pass.ledger (pass : Pass) : Ledger where
  emitted := pass.events.filterMap Event.emission?
  imports := pass.context.imports
  helpers := pass.context.helpers

namespace Ledger

/-- Requests that are made one after the other. -/
def requestAll (entries requests : List (String × String)) : List (String × String) :=
  requests.foldl (fun entries entry => (Context.request entry.1 entry.2 entries).2) entries

/-- The ledger after requests for imports and for helper definitions. -/
def collect (imports helpers : List (String × String)) (l : Ledger) : Ledger :=
  { l with imports := requestAll l.imports imports, helpers := requestAll l.helpers helpers }

/-- The ledger after a block alone. -/
def note (indent : String) (l : Ledger) (b : Block) : Ledger :=
  collect (neededImports b.type) (neededHelpers indent b.type)
    { l with emitted := l.emitted ++ [(b.id, b.type)] }

/-- The ledger after blocks in their order. -/
def noteAll (indent : String) (l : Ledger) (blocks : List Block) : Ledger :=
  blocks.foldl (note indent) l

theorem noteAll_append (indent : String) (l : Ledger) (front back : List Block) :
    l.noteAll indent (front ++ back) = (l.noteAll indent front).noteAll indent back :=
  List.foldl_append

/-- The ledger after an operation on the context. -/
def perform (l : Ledger) : Context.Operation → Ledger
  | .requireImport key line => { l with imports := (Context.request key line l.imports).2 }
  | .provideHelper key code => { l with helpers := (Context.request key code l.helpers).2 }
  | .registerTask _ | .enterTask | .leaveTask => l
  | .reset | .finalize _ => { l with imports := [], helpers := [] }

/-- The ledger after an event. -/
def report (l : Ledger) (event : Event) : Ledger :=
  { l with emitted := l.emitted ++ event.emission?.toList }

end Ledger

theorem Pass.ledger_perform (pass : Pass) (operation : Context.Operation) :
    (pass.perform operation).2.ledger = pass.ledger.perform operation := by
  cases operation with
  | finalize code =>
    show Pass.ledger ⟨(pass.context.finalize code).2, pass.events⟩ = _
    rw [Context.finalize_snd]
    rfl
  | _ => rfl

theorem Pass.ledger_report (pass : Pass) (event : Event) :
    (pass.report event).ledger = pass.ledger.report event := by
  simp only [Pass.ledger, Pass.report, Ledger.report, List.filterMap_append]
  cases event <;> rfl

/-! ## Emitters -/

/-- How the answers to questions move the ledger. The code of a value or of
    statements comes with the blocks that are emitted for it. -/
def ledgerMoves (indent : String) (value body : String → List Block) :
    (query : Query) → Ledger → query.Answer → Ledger → Prop
  | .value slot _ _, l, answer, l' =>
    ∀ code, answer = .ok code → l' = l.noteAll indent (value slot)
  | .body slot, l, answer, l' => ∀ code, answer = .ok code → l' = l.noteAll indent (body slot)
  | .context operation, l, _, l' => l' = l.perform operation
  | .report event, l, _, l' => l' = l.report event
  | .fieldText _, l, _, l' | .fieldNumber _, l, _, l' | .recorded, l, _, l' => l' = l

/-- The blocks that are emitted for a slot. -/
def slotBlocks (value body : String → List Block) (slot : Slot) : List Block :=
  match slot.kind with
  | .value _ => value slot.name
  | .body => body slot.name
  | _ => []

namespace Script.Emit

variable (indent : String) (value body : String → List Block)

/-- From the ledger `l`, the emitter succeeds only with the ledger `base` and the
    blocks of the slots noted in their order. -/
def Gathers {α : Type} (slots : List Slot) (x : Emit α) (l base : Ledger) : Prop :=
  x.run.Leads (ledgerMoves indent value body)
    (fun result l' => ∀ a, result = .ok a →
      l' = base.noteAll indent (slots.flatMap (slotBlocks value body))) l

variable {indent value body} {α : Type} {slots : List Slot} {name : String} {l base : Ledger}

theorem gathers_pure {a : α} : Gathers indent value body [] (pure a) l l :=
  fun _ _ => rfl

theorem gathers_throw {e : GenerateError} :
    Gathers indent value body slots (throw e : Emit α) l base :=
  fun _ hresult => nomatch hresult

/-- A slot's blocks are noted before those of the slots after it. -/
theorem gathers_slot {slot : Slot} {x : Emit α}
    (rest : Gathers indent value body slots x (l.noteAll indent (slotBlocks value body slot))
      (l.noteAll indent (slotBlocks value body slot))) :
    Gathers indent value body (slot :: slots) x
      (l.noteAll indent (slotBlocks value body slot)) l := by
  unfold Gathers at rest ⊢
  rwa [← Ledger.noteAll_append, ← List.flatMap_cons] at rest

theorem gathers_value {check : Option (List String)} {outer : Order} {default : String}
    {f : String → Emit α}
    (rest : ∀ code, Gathers indent value body slots (f code) (l.noteAll indent (value name))
      (l.noteAll indent (value name))) :
    Gathers indent value body (⟨name, .value check⟩ :: slots)
      (Emit.value name outer default >>= f) l l := by
  intro answer l' moved
  cases answer with
  | error e => exact gathers_throw
  | ok code =>
    obtain rfl : l' = l.noteAll indent (value name) := moved code rfl
    exact gathers_slot (rest code)

/-- An error in a body is not passed on before the emitter has gone on. -/
theorem gathers_body {f : Except GenerateError String → Emit α}
    (rest : ∀ code, Gathers indent value body slots (f (.ok code)) (l.noteAll indent (body name))
      (l.noteAll indent (body name)))
    (fails : ∀ e l', Gathers indent value body (⟨name, .body⟩ :: slots) (f (.error e)) l' l) :
    Gathers indent value body (⟨name, .body⟩ :: slots) (ask (.body name) >>= f) l l := by
  intro answer l' moved
  cases answer with
  | error e => exact fails e l'
  | ok code =>
    obtain rfl : l' = l.noteAll indent (body name) := moved code rfl
    exact gathers_slot (rest code)

theorem gathers_fieldText {kind : SlotKind} {f : String → Emit α}
    (field : slotBlocks value body ⟨name, kind⟩ = [])
    (rest : ∀ text, Gathers indent value body slots (f text) l base) :
    Gathers indent value body (⟨name, kind⟩ :: slots) (fieldText name >>= f) l base := by
  intro answer l' moved
  obtain rfl : l' = l := moved
  cases answer with
  | error e => exact gathers_throw
  | ok text =>
    have hskip : Gathers indent value body (⟨name, kind⟩ :: slots) (f text) l' base := by
      unfold Gathers
      rw [List.flatMap_cons, field]
      exact rest text
    exact hskip

theorem gathers_fieldNumber {default : Float} {least greatest : Option Float} {f : Float → Emit α}
    (rest : ∀ x, Gathers indent value body slots (f x) l base) :
    Gathers indent value body (⟨name, .number default least greatest⟩ :: slots)
      (fieldNumber name >>= f) l base := by
  intro answer l' moved
  obtain rfl : l' = l := moved
  cases answer with
  | error e => exact gathers_throw
  | ok x => exact rest x

theorem gathers_recorded {f : Context.Recorded → Emit α}
    (rest : ∀ recorded, Gathers indent value body slots (f recorded) l base) :
    Gathers indent value body slots (recorded >>= f) l base := by
  intro answer l' moved
  obtain rfl : l' = l := moved
  exact rest answer

theorem gathers_perform {operation : Context.Operation} {f : Unit → Emit α}
    (rest : Gathers indent value body slots (f ()) (l.perform operation) base) :
    Gathers indent value body slots (perform operation >>= f) l base := by
  intro answer l' moved
  obtain rfl : l' = l.perform operation := moved
  exact rest

theorem gathers_report {event : Event} {f : Unit → Emit α} (silent : event.emission? = none)
    (rest : Gathers indent value body slots (f ()) l base) :
    Gathers indent value body slots (report event >>= f) l base := by
  intro answer l' moved
  have hsame : l.report event = l := by simp [Ledger.report, silent]
  obtain rfl : l' = l := moved.trans hsame
  exact rest

end Script.Emit

namespace Emitters

open Script.Emit

variable (b : Block) (indent : String) {value body : String → List Block} {l : Ledger}

theorem gathers_serialConfig (type title tooltip className : String) :
    Gathers indent value body (Catalog.serialConfig type title tooltip).addressableSlots
      (serialConfig className b indent) l
      (l.collect [importFrom "connection_type" className] []) := by
  refine gathers_perform ?_
  refine gathers_value fun port => ?_
  refine gathers_fieldText rfl fun baudrate => ?_
  refine gathers_value fun bytesize => ?_
  refine gathers_fieldText rfl fun parity => ?_
  refine gathers_value fun stopbits => ?_
  refine gathers_value fun timeout => ?_
  refine gathers_value fun slaveId => ?_
  refine gathers_value fun startAddress => ?_
  refine gathers_value fun count => ?_
  refine gathers_fieldText rfl fun functionCode => ?_
  exact gathers_pure

theorem gathers_tcpConfig :
    Gathers indent value body Catalog.tcpConfig.addressableSlots (tcpConfig b indent) l
      (l.collect [importFrom "connection_type" "TCPConfig"] []) := by
  refine gathers_perform ?_
  refine gathers_value fun host => ?_
  refine gathers_value fun port => ?_
  refine gathers_value fun timeout => ?_
  refine gathers_value fun slaveId => ?_
  refine gathers_value fun startAddress => ?_
  refine gathers_value fun count => ?_
  refine gathers_fieldText rfl fun functionCode => ?_
  exact gathers_pure

theorem gathers_pullData :
    Gathers indent value body Catalog.pullData.addressableSlots (pullData b indent) l
      (l.collect [importFrom "poll" "pull_data_async"] []) := by
  refine gathers_perform ?_
  refine gathers_recorded fun recorded => ?_
  dsimp only
  split
  · exact gathers_report rfl (gathers_value fun config => gathers_pure)
  · exact gathers_value fun config => gathers_pure

theorem gathers_setInterval :
    Gathers indent value body Catalog.setInterval.addressableSlots (setInterval b indent) l
      (l.collect [importFrom "poll" "set_interval_frequency"] []) :=
  gathers_perform (gathers_value fun _ => gathers_pure)

theorem gathers_getField :
    Gathers indent value body Catalog.getField.addressableSlots (getField b indent) l l :=
  gathers_fieldText rfl fun _ => gathers_value fun _ => gathers_pure

theorem gathers_taskDefinition :
    Gathers indent value body Catalog.taskDefinition.addressableSlots (taskDefinition b indent) l
      (l.collect [("asyncio", "import asyncio"), importFrom "poll" "set_interval_frequency"]
        []) := by
  refine gathers_perform ?_
  refine gathers_perform ?_
  refine gathers_fieldText rfl fun text => ?_
  refine gathers_fieldNumber fun interval => ?_
  refine gathers_recorded fun recorded => ?_
  have rest : ∀ name l, Gathers indent value body [⟨"DO", .body⟩] (do
      perform (.registerTask name)
      perform .enterTask
      let body ← ask (.body "DO")
      perform .leaveTask
      return Fragment.statement (taskFunction name indent (← check body) interval)) l l := by
    intro name l
    refine gathers_perform ?_
    refine gathers_perform ?_
    refine gathers_body (fun code => ?_) (fun e l' => ?_)
    · exact gathers_perform gathers_pure
    · exact gathers_perform gathers_throw
  dsimp only
  split
  · exact gathers_report rfl (rest _ _)
  · exact rest _ _

theorem gathers_getRegister :
    Gathers indent value body Catalog.getRegister.addressableSlots (getRegister b indent) l l :=
  gathers_value fun _ => gathers_value fun _ => gathers_pure

theorem gathers_getLimiter :
    Gathers indent value body Catalog.getLimiter.addressableSlots (getLimiter b indent) l
      (l.collect [importFrom "dcp" "get_limiter"] []) :=
  gathers_perform (gathers_fieldText rfl fun _ => gathers_pure)

theorem gathers_dcpUpdate :
    Gathers indent value body Catalog.dcpUpdate.addressableSlots (dcpUpdate b indent) l
      (l.collect [importFrom "dcp" "dcp_update"] []) :=
  gathers_perform (gathers_fieldText rfl fun _ => gathers_value fun _ => gathers_pure)

theorem gathers_alarmEvaluator :
    Gathers indent value body Catalog.alarmEvaluator.addressableSlots (alarmEvaluator b indent) l
      (l.collect [] [(Alarm.helperName, Alarm.helperDefinition indent)]) := by
  refine gathers_perform ?_
  refine gathers_value fun reading => ?_
  refine gathers_value fun lv1 => ?_
  refine gathers_value fun lv2 => ?_
  refine gathers_value fun lv3 => ?_
  exact gathers_pure

theorem gathers_log :
    Gathers indent value body Catalog.log.addressableSlots (log b indent) l
      (l.collect [("logging", "import logging")] [("logging_config", loggingSetup indent)]) :=
  gathers_perform (gathers_perform (gathers_value fun _ => gathers_pure))

theorem gathers_text :
    Gathers indent value body Catalog.text.addressableSlots (text b indent) l l :=
  gathers_fieldText rfl fun _ => gathers_pure

theorem gathers_mathNumber :
    Gathers indent value body Catalog.mathNumber.addressableSlots (mathNumber b indent) l l :=
  gathers_fieldNumber fun _ => gathers_pure

theorem gathers_variablesSet :
    Gathers indent value body Catalog.variablesSet.addressableSlots (variablesSet b indent) l l :=
  gathers_fieldText rfl fun _ => gathers_value fun _ => gathers_pure

theorem gathers_variablesGet :
    Gathers indent value body Catalog.variablesGet.addressableSlots (variablesGet b indent) l l :=
  gathers_fieldText rfl fun _ => gathers_pure

end Emitters

/-- The emitter of every built-in type requests what the type needs, and then asks
    for the slots of the type. -/
theorem gathers_builtins {e : Builtin} (h : e ∈ builtins) (b : Block) (indent : String)
    (value body : String → List Block) (l : Ledger) :
    Emit.Gathers indent value body e.spec.addressableSlots (e.emitter b indent) l
      (l.collect (neededImports e.spec.type) (neededHelpers indent e.spec.type)) := by
  simp only [builtins, List.mem_cons, List.not_mem_nil, or_false] at h
  rcases h with rfl | rfl | rfl | rfl | rfl | rfl | rfl | rfl | rfl | rfl | rfl | rfl | rfl |
    rfl | rfl | rfl
  · exact Emitters.gathers_serialConfig b indent _ _ _ _
  · exact Emitters.gathers_serialConfig b indent _ _ _ _
  · exact Emitters.gathers_tcpConfig b indent
  · exact Emitters.gathers_pullData b indent
  · exact Emitters.gathers_setInterval b indent
  · exact Emitters.gathers_getField b indent
  · exact Emitters.gathers_taskDefinition b indent
  · exact Emitters.gathers_getRegister b indent
  · exact Emitters.gathers_getLimiter b indent
  · exact Emitters.gathers_dcpUpdate b indent
  · exact Emitters.gathers_alarmEvaluator b indent
  · exact Emitters.gathers_log b indent
  · exact Emitters.gathers_text b indent
  · exact Emitters.gathers_mathNumber b indent
  · exact Emitters.gathers_variablesSet b indent
  · exact Emitters.gathers_variablesGet b indent

/-! ## Passes -/

namespace Generation

variable {α β : Type} {indent : String} {front back : List Block}

/-- In every pass in which the computation succeeds, it notes the blocks in their
    order. -/
def Adds (indent : String) (blocks : List Block) (x : Generation α) : Prop :=
  ∀ pass a, (x.run.run pass).1 = .ok a →
    (x.run.run pass).2.ledger = pass.ledger.noteAll indent blocks

theorem Adds.pure {a : α} : Adds indent [] (Pure.pure a : Generation α) :=
  fun _ _ _ => rfl

theorem Adds.throw {blocks : List Block} {e : GenerateError} :
    Adds indent blocks (throw e : Generation α) :=
  fun _ _ h => nomatch h

theorem Adds.bind {x : Generation α} {f : α → Generation β} (hx : Adds indent front x)
    (hf : ∀ a, Adds indent back (f a)) : Adds indent (front ++ back) (x >>= f) := by
  intro pass b hb
  obtain ⟨a, ha, hb, hafter⟩ := exists_of_run_bind_eq_ok hb
  rw [hafter, hf a _ b hb, hx pass a ha, Ledger.noteAll_append]

theorem cumulative_adds (indent : String) : Cumulative fun _ => Adds indent where
  pure _ := .pure
  throw _ := .throw
  bind hx hf := hx.bind hf

end Generation

namespace Generator

variable {g : Generator} {b : Block}

/-- The blocks of what is listed. -/
def blocksOf (listed : List Placed) : List Block :=
  listed.map (·.block)

theorem blocksOf_flatMap {α : Type} (items : List α) (listed : α → List Placed) :
    blocksOf (items.flatMap listed) = items.flatMap fun item => blocksOf (listed item) :=
  List.map_flatMap

/-- A pass that emits the block alone, or goes through the chain that it begins,
    notes what is listed for it. -/
def Notes (g : Generator) (b : Block) : Prop :=
  Generation.Adds g.indent (blocksOf (g.registry.listBlock b).emission) (g.resolve b).emitted ∧
    ∀ attached, Generation.Adds g.indent (blocksOf (g.registry.listBlock b).chain)
      ((g.resolve b).chain attached)

theorem adds_valueOf {slot default : String} {outer : Order}
    (inputs : ∀ name child, b.input? name = some child → g.Notes child) :
    Generation.Adds g.indent
      (blocksOf (Listed.valueIn (Dictionary.mapValues g.registry.listBlock b.inputs) slot))
      (g.valueOf b slot outer default ((b.input? slot).map g.resolve)) := by
  rw [blocksOf, Registry.map_valueIn]
  exact (Generation.cumulative_adds g.indent).valueOf _ fun child hchild _ =>
    (inputs slot child hchild).1

theorem adds_bodyOf {slot : String}
    (inputs : ∀ name child, b.input? name = some child → g.Notes child) :
    Generation.Adds g.indent
      (blocksOf (Listed.bodyIn (Dictionary.mapValues g.registry.listBlock b.inputs) slot))
      (g.bodyOf b slot ((b.input? slot).map g.resolve)) := by
  rw [blocksOf, Registry.map_bodyIn]
  exact (Generation.cumulative_adds g.indent).bodyOf _ fun first hfirst =>
    (inputs slot first hfirst).2 true

/-- The answers of the generator move the ledger by what is listed in the
    slots. -/
theorem ledgerMoves_answer
    (inputs : ∀ name child, b.input? name = some child → g.Notes child) (query : Query)
    (pass : Pass) :
    ledgerMoves g.indent
      (fun slot => blocksOf
        (Listed.valueIn (Dictionary.mapValues g.registry.listBlock b.inputs) slot))
      (fun slot => blocksOf
        (Listed.bodyIn (Dictionary.mapValues g.registry.listBlock b.inputs) slot))
      query pass.ledger
      ((g.answer b (Dictionary.mapValues g.resolve b.inputs) query).run pass).1
      ((g.answer b (Dictionary.mapValues g.resolve b.inputs) query).run pass).2.ledger := by
  cases query with
  | value slot outer default =>
    simp only [answer, get?_resolved]
    exact adds_valueOf inputs pass
  | body slot =>
    simp only [answer, get?_resolved]
    exact adds_bodyOf inputs pass
  | fieldText slot => rfl
  | fieldNumber slot => rfl
  | recorded => rfl
  | context operation => exact Pass.ledger_perform pass operation
  | report event => exact Pass.ledger_report pass event

theorem adds_emitted (hplain : g.Plain)
    (inputs : ∀ name child, b.input? name = some child → g.Notes child) :
    Generation.Adds g.indent (blocksOf (g.registry.listBlock b).emission)
      (g.resolve b).emitted := by
  rw [resolve_emitted, Registry.listBlock_emission, Registry.listEmission]
  unfold emit
  rcases hplain b.type with ⟨-, hemitter⟩ | ⟨e, he, hname, htype, hemitter⟩
  · rw [hemitter]
    exact .throw
  rw [hemitter, htype]
  intro pass f hf
  have hrun := (gathers_builtins he b g.indent _ _ _).run (ledgerMoves_answer inputs) f hf
  have hslots : slotBlocks
        (fun slot => blocksOf
          (Listed.valueIn (Dictionary.mapValues g.registry.listBlock b.inputs) slot))
        (fun slot => blocksOf
          (Listed.bodyIn (Dictionary.mapValues g.registry.listBlock b.inputs) slot)) =
      fun slot =>
        blocksOf (Listed.inSlot (Dictionary.mapValues g.registry.listBlock b.inputs) slot) := by
    funext slot
    unfold slotBlocks Listed.inSlot
    cases slot.kind <;> rfl
  rw [Pass.ledger_report, hname, hslots, ← blocksOf_flatMap] at hrun
  exact hrun

theorem adds_link {attached : Bool} (emitted : Generation.Adds g.indent
      (blocksOf (g.registry.listBlock b).emission) (g.resolve b).emitted)
    (next : ∀ follower, b.next = some follower → g.Notes follower) :
    Generation.Adds g.indent (blocksOf (g.registry.listBlock b).chain)
      (g.link b (g.resolve b).emitted (b.next.map g.resolve) attached) := by
  rw [blocksOf, Registry.map_chain]
  exact (Generation.cumulative_adds g.indent).link _ _ (fun _ => emitted)
    fun follower hfollower => (next follower hfollower).2 true

/-- Every emission and every chain notes what is listed for it. -/
theorem notes (hplain : g.Plain) (b : Block) : g.Notes b := by
  induction b using Block.tree_induction with
  | step b inputs next =>
    have emitted := adds_emitted hplain inputs
    refine ⟨emitted, fun attached => ?_⟩
    rw [resolve_chain]
    exact adds_link emitted next

theorem adds_topLevel (hplain : g.Plain) (b : Block) :
    Generation.Adds g.indent (blocksOf (g.registry.listTop (g.registry.listBlock b)))
      (g.topLevel (g.resolve b)) := by
  obtain ⟨emitted, chain⟩ := notes hplain b
  rw [blocksOf, Registry.map_listTop]
  exact (Generation.cumulative_adds g.indent).topLevel (fun _ => emitted) (chain false)

/-- A pass that succeeds has noted the live blocks. -/
theorem adds_topLevels (hplain : g.Plain) (w : Workspace) :
    Generation.Adds g.indent (g.registry.liveBlocks w) (g.topLevels w) := by
  have hlive : g.registry.liveBlocks w =
      w.blocks.flatMap fun b => blocksOf (g.registry.listTop (g.registry.listBlock b)) := by
    calc g.registry.liveBlocks w
        = (w.blocks.zipIdx.map (·.1)).flatMap fun b =>
            blocksOf (g.registry.listTop (g.registry.listBlock b)) := by
          simp only [Registry.liveBlocks, Registry.live, List.map_flatMap, List.map_map,
            List.flatMap_map, blocksOf, Function.comp_def]
      _ = _ := by rw [List.zipIdx_map_fst]
  rw [hlive]
  exact (Generation.cumulative_adds g.indent).mapM _ fun b _ => adds_topLevel hplain b

/-- A script is finalised from pieces and from what was noted for the live
    blocks. -/
theorem exists_ledger_of_generate (hplain : g.Plain) {w : Workspace} {script : String}
    (h : g.generate w = .ok script) :
    ∃ chunks pass, (g.topLevels w).run.run ⟨Context.withIndent g.indent, []⟩ = (.ok chunks, pass) ∧
      pass.ledger = Ledger.noteAll g.indent ⟨[], [], []⟩ (g.registry.liveBlocks w) ∧
      script = (pass.context.finalize (joinChunks chunks)).1 := by
  have hadds := adds_topLevels hplain w ⟨Context.withIndent g.indent, []⟩
  rw [generate_eq] at h
  generalize (g.topLevels w).run.run ⟨Context.withIndent g.indent, []⟩ = ended at h hadds
  obtain ⟨result, pass⟩ := ended
  cases result with
  | error e => cases h
  | ok chunks => exact ⟨chunks, pass, rfl, hadds chunks rfl, (Except.ok.inj h).symm⟩

/-- The slots of a built-in type have different names. -/
theorem Plain.addressed (hplain : g.Plain) : g.registry.Addressed := by
  intro type spec htype
  rcases hplain type with ⟨hnone, -⟩ | ⟨e, he, -, hnamed, -⟩
  · rw [hnone] at htype
    cases htype
  · rw [hnamed] at htype
    cases htype
    have hvalid := validate_default e.spec (mem_catalog he)
    exact (BlockSpec.slotFault?_eq_none_iff.mp (BlockSpec.validate_eq_ok_iff.mp hvalid).2).2.1

theorem emitted_noteAll (indent : String) (l : Ledger) (blocks : List Block) :
    (l.noteAll indent blocks).emitted = l.emitted ++ blocks.map fun b => (b.id, b.type) := by
  induction blocks generalizing l with
  | nil => simp [Ledger.noteAll]
  | cons b rest ih =>
    show ((l.note indent b).noteAll indent rest).emitted = _
    rw [ih]
    simp [Ledger.note, Ledger.collect]

/-- Over the default catalog, a pass that succeeds emits the live blocks in their
    order. No place is emitted twice, and a block is emitted if and only if the pass
    gets to it: through inputs of enabled blocks only, but in a chain past disabled
    ones. -/
theorem emissions_generate {width : Nat} {g : Generator}
    (built : (Builder.default.indentWidth width).build = .ok g) {w : Workspace} {script : String}
    (h : g.generate w = .ok script) :
    (g.generateWith w (Context.withIndent g.indent)).events.filterMap Event.emission? =
        (g.registry.live w).map (fun entry => (entry.2.block.id, entry.2.block.type)) ∧
      ((g.registry.live w).map fun entry => (entry.1, entry.2.path)).Nodup ∧
      ∀ number p, (number, p) ∈ g.registry.live w ↔
        g.registry.GetsIn w number p.path p.block := by
  obtain ⟨hplain, -⟩ := Builder.plain_of_build built
  refine ⟨?_, g.registry.nodup_live hplain.addressed w, g.registry.mem_live_iff w⟩
  obtain ⟨chunks, pass, hrun, hledger, -⟩ := exists_ledger_of_generate hplain h
  have hevents : (g.generateWith w (Context.withIndent g.indent)).events.filterMap
      Event.emission? = pass.ledger.emitted := by
    unfold generateWith Generation.outcome
    simp [hrun, Pass.ledger, Event.emission?]
  rw [hevents, hledger, emitted_noteAll, Registry.liveBlocks]
  simp

/-- Behind a disabled assignment the next one is emitted with its value, and the
    value of the disabled one is not. -/
theorem emissions_behind_disabled :
    (Generator.generateWith
      ⟨⟨Catalog.default⟩, Emitters.default, (Builder.default.indentWidth 4).indent⟩
      ⟨[⟨"b1", "variables_set", false, [], [("VALUE", ⟨"b2", "text", true, [], [], none⟩)],
        some ⟨"b3", "variables_set", true, [], [("VALUE", ⟨"b4", "text", true, [], [], none⟩)],
          none⟩⟩]⟩
      (Context.withIndent (Builder.default.indentWidth 4).indent)).events.filterMap
        Event.emission? = [("b3", "variables_set"), ("b4", "text")] := by
  have hscript : Generator.generate
      ⟨⟨Catalog.default⟩, Emitters.default, (Builder.default.indentWidth 4).indent⟩
      ⟨[⟨"b1", "variables_set", false, [], [("VALUE", ⟨"b2", "text", true, [], [], none⟩)],
        some ⟨"b3", "variables_set", true, [], [("VALUE", ⟨"b4", "text", true, [], [], none⟩)],
          none⟩⟩]⟩ = .ok "item = \"\"\n" := by rfl
  exact (emissions_generate (Builder.build_default 4) hscript).1

end Generator

end PollScript
