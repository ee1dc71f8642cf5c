import PollScript.Proofs.Composition
import PollScript.Proofs.Tasks
import PollScript.Proofs.Visits

/-!
# The journal of a pass

A poll is awaited, and only the function of a task can do that. Whether code ends up in such
a function is told by a counter in the context. A task raises it, asks for the code of its
body and lowers it again, also if the body has an error.

The journal of a pass holds what was reported about blocks together with this counter. An
emitter goes on with it slot by slot. It may end early with an error, and then it has told of
fewer blocks, but the counter is back where it was.

Results:

* `Visits.leads`: an emitter that only asks about slots and requests what it needs has the
  blocks in its slots told of, up to the first error.
* `recounts_builtins`: the emitter of every built-in type warns of a poll if no task is open,
  and then has the slots of the type told of, from within the task if it is one.
-/

namespace PollScript

open Script

/-- The name of the type of polls. -/
def pollType : String := "modbus_pull_data"

/-- Whether the connection leads into the body of a task that takes part. -/
def Block.opensTask (b : Block) (edge : Edge) : Bool :=
  b.isTask && edge == .input "DO"

theorem not_exists_ok_of_error {ε α : Type} (e : ε) : ¬ ∃ a, (.error e : Except ε α) = .ok a := by
  rintro ⟨a, h⟩
  cases h

/-! ## The journal -/

/-- Whether the event is an emission or a warning about a poll. -/
def Event.isNotice : Event → Bool
  | .emitting .. | .pullOutsideTask _ => true
  | _ => false

/-- The warnings about a block that is in the body of a task or not. -/
def Block.warnings (b : Block) (inTask : Bool) : List Event :=
  if b.type = pollType ∧ inTask = false then [.pullOutsideTask b.id] else []

/-- The emission of a block that is in the body of a task or not, with the warnings about it. -/
def Block.notices (b : Block) (inTask : Bool) : List Event :=
  .emitting b.id b.type :: b.warnings inTask

/-- What a pass has reported about its blocks, and how many task bodies are open. -/
structure Journal where
  taskDepth : Nat
  notices : List Event

/-- The journal of a pass. -/
def Pass.journal (pass : Pass) : Journal where
  taskDepth := pass.context.taskDepth
  notices := pass.events.filter Event.isNotice

namespace Journal

variable {j j' j'' : Journal} {part : List Event} {parts front back : List (List Event)}
  {complete complete' : Prop}

/-- Whether a task body is open. -/
def inTask (j : Journal) : Bool :=
  decide (0 < j.taskDepth)

/-- The journal with more events. -/
def add (j : Journal) (events : List Event) : Journal :=
  { j with notices := j.notices ++ events }

@[simp] theorem add_nil (j : Journal) : j.add [] = j := by
  simp [add]

theorem add_add (j : Journal) (events more : List Event) :
    (j.add events).add more = j.add (events ++ more) := by
  simp [add]

/-- The journal after an operation on the context. -/
def perform (j : Journal) : Context.Operation → Journal
  | .enterTask => { j with taskDepth := j.taskDepth + 1 }
  | .leaveTask => { j with taskDepth := j.taskDepth - 1 }
  | .reset | .finalize _ => { j with taskDepth := 0 }
  | .requireImport .. | .provideHelper .. | .registerTask _ => j

/-- The journal after an event. -/
def report (j : Journal) (event : Event) : Journal :=
  j.add ([event].filter Event.isNotice)

/-- The later journal goes on with the parts in their order, and with all of them if it is
    complete. As many task bodies are open as before. -/
def Continues (j : Journal) (parts : List (List Event)) (complete : Prop) (j' : Journal) : Prop :=
  ∃ told, told <+: parts ∧ j' = j.add told.flatten ∧ (complete → told = parts)

theorem Continues.refl : j.Continues [] complete j :=
  ⟨[], List.prefix_refl _, j.add_nil.symm, fun _ => rfl⟩

/-- Nothing is told yet. -/
theorem Continues.none (incomplete : ¬ complete) : j.Continues parts complete j :=
  ⟨[], List.nil_prefix, j.add_nil.symm, fun h => absurd h incomplete⟩

theorem Continues.mono (h : j.Continues parts complete j') (himp : complete' → complete) :
    j.Continues parts complete' j' := by
  obtain ⟨told, hprefix, hadd, hall⟩ := h
  exact ⟨told, hprefix, hadd, fun h => hall (himp h)⟩

theorem Continues.inTask (h : j.Continues parts complete j') : j'.inTask = j.inTask := by
  obtain ⟨told, -, rfl, -⟩ := h
  rfl

/-- A part that is told for sure comes first. -/
theorem Continues.cons (h : (j.add part).Continues parts complete j') :
    j.Continues (part :: parts) complete j' := by
  obtain ⟨told, hprefix, rfl, hall⟩ := h
  refine ⟨part :: told, (List.prefix_cons_inj part).mpr hprefix, j.add_add _ _, fun h => ?_⟩
  rw [hall h]

theorem Continues.append (h : j.Continues front complete j') (hcomplete : complete)
    (h' : j'.Continues back complete' j'') : j.Continues (front ++ back) complete' j'' := by
  obtain ⟨told, -, rfl, hall⟩ := h
  obtain rfl := hall hcomplete
  obtain ⟨more, hprefix, rfl, hmore⟩ := h'
  refine ⟨told ++ more, (List.prefix_append_right_inj told).mpr hprefix, ?_, fun h => ?_⟩
  · rw [add_add, List.flatten_append]
  · rw [hmore h]

/-- What would follow is left out. -/
theorem Continues.stop (h : j.Continues front complete j') (incomplete : ¬ complete') :
    j.Continues (front ++ back) complete' j' := by
  obtain ⟨told, hprefix, rfl, -⟩ := h
  exact ⟨told, hprefix.trans (List.prefix_append front back), rfl, fun h => absurd h incomplete⟩

end Journal

theorem Pass.journal_perform (pass : Pass) (operation : Context.Operation) :
    (pass.perform operation).2.journal = pass.journal.perform operation := by
  cases operation with
  | finalize code =>
    show Pass.journal ⟨(pass.context.finalize code).2, pass.events⟩ = _
    rw [Context.finalize_snd]
    rfl
  | _ => rfl

theorem Pass.journal_report (pass : Pass) (event : Event) :
    (pass.report event).journal = pass.journal.report event := by
  simp only [Pass.journal, Pass.report, Journal.report, Journal.add, List.filter_append]

/-! ## Programs -/

namespace Script

/-- How the answers to questions move the journal. The code of a value or of statements comes
    with what is told of the blocks in the slot, which depends on whether a task is open. -/
def journalMoves (value body : (inTask : Bool) → String → List (List Event)) :
    (query : Query) → Journal → query.Answer → Journal → Prop
  | .value slot _ _, j, answer, j' =>
    j.Continues (value j.inTask slot) (∃ code, answer = .ok code) j'
  | .body slot, j, answer, j' => j.Continues (body j.inTask slot) (∃ code, answer = .ok code) j'
  | .context operation, j, _, j' => j' = j.perform operation
  | .report event, j, _, j' => j' = j.report event
  | .recorded, j, answer, j' => answer.inTask = j.inTask ∧ j' = j
  | .fieldText _, j, _, j' | .fieldNumber _, j, _, j' => j' = j

/-- What is told of the blocks in a slot. -/
def slotParts (value body : (inTask : Bool) → String → List (List Event)) (inTask : Bool)
    (slot : Slot) : List (List Event) :=
  match slot.kind with
  | .value _ => value inTask slot.name
  | .body => body inTask slot.name
  | _ => []

/-- The question neither reports anything about blocks nor opens or closes a task body. -/
def Query.IsDiscreet : Query → Prop
  | .context (.requireImport ..) | .context (.provideHelper ..) => True
  | .context _ => False
  | .report event => event.isNotice = false
  | _ => True

namespace Program

variable {α β : Type}

/-- The program only asks discreet questions. -/
def Discreet : Program α → Prop
  | .done _ => True
  | .ask query next => query.IsDiscreet ∧ ∀ answer, (next answer).Discreet

theorem Discreet.bind {p : Program α} {f : α → Program β} (hp : p.Discreet)
    (hf : ∀ a, (f a).Discreet) : (p.bind f).Discreet := by
  induction p with
  | done a => exact hf a
  | ask query next ih => exact ⟨hp.1, fun answer => ih answer (hp.2 answer)⟩

variable {value body : Bool → String → List (List Event)} {j j' : Journal}

/-- The journal stays as it is where a discreet question is about no slot. -/
theorem eq_of_journalMoves {query : Query} {answer : query.Answer} (other : query.IsAside)
    (discreet : query.IsDiscreet) (moved : journalMoves value body query j answer j') :
    j' = j := by
  cases query with
  | recorded => exact moved.2
  | context operation =>
    cases operation with
    | requireImport key line => exact moved
    | provideHelper key code => exact moved
    | _ => exact discreet.elim
  | report event =>
    have hsilent : event.isNotice = false := discreet
    have hreport : j' = j.report event := moved
    rw [hreport, Journal.report]
    simp [hsilent]
  | _ => exact other.elim

/-- With the question that belongs to a slot, the blocks in the slot are told of. -/
theorem continues_of_poses {slot : Slot} {query : Query} {answer : query.Answer}
    (poses : slot.Poses query) (moved : journalMoves value body query j answer j') :
    j.Continues (slotParts value body j.inTask slot) (query.verdict answer = .ok ()) j' := by
  obtain ⟨name, kind⟩ := slot
  cases query with
  | value slot outer default =>
    obtain ⟨rfl, check, rfl⟩ := poses
    exact Journal.Continues.mono moved verdict_eq_ok_iff.mp
  | body slot =>
    obtain ⟨rfl, rfl⟩ := poses
    exact Journal.Continues.mono moved verdict_eq_ok_iff.mp
  | fieldText slot =>
    obtain rfl : j' = j := moved
    obtain ⟨-, ⟨default, rfl⟩ | ⟨options, rfl⟩⟩ := poses
    · exact .refl
    · exact .refl
  | fieldNumber slot =>
    obtain rfl : j' = j := moved
    obtain ⟨-, default, least, greatest, rfl⟩ := poses
    exact .refl
  | _ => exact poses.elim

theorem Fails.leads {e : GenerateError} {p : Program (Except GenerateError Fragment)}
    (h : p.Fails e) (discreet : p.Discreet) :
    p.Leads (journalMoves value body) (fun result j' => result = .error e ∧ j' = j) j := by
  induction p with
  | done result => exact ⟨h, rfl⟩
  | ask query next ih =>
    intro answer j' moved
    cases query with
    | context operation =>
      obtain rfl := eq_of_journalMoves (show Query.IsAside (.context operation) from trivial)
        discreet.1 moved
      exact ih answer (h answer) (discreet.2 answer)
    | _ => exact h.elim

/-- A discreet program that visits slots has their blocks told of, up to the first error. -/
theorem Visits.leads {isValue : Bool} {slots : List Slot}
    {p : Program (Except GenerateError Fragment)} (h : p.Visits isValue slots)
    (discreet : p.Discreet) :
    p.Leads (journalMoves value body)
      (fun result j' =>
        j.Continues (slots.flatMap (slotParts value body j.inTask)) (∃ f, result = .ok f) j')
      j := by
  induction h generalizing j with
  | done kind => exact .refl
  | aside other rest ih =>
    intro answer j' moved
    obtain rfl := eq_of_journalMoves other discreet.1 moved
    exact ih answer (discreet.2 answer)
  | @visit slot slots query next poses rest fails ih =>
    intro answer j' moved
    have hslot := continues_of_poses poses moved
    cases hverdict : query.verdict answer with
    | ok _ =>
      refine (ih answer hverdict (discreet.2 answer)).mono fun result j'' hrest => ?_
      rw [hslot.inTask] at hrest
      exact hslot.append hverdict hrest
    | error e =>
      refine ((fails answer e hverdict).leads (discreet.2 answer)).mono ?_
      rintro result j'' ⟨rfl, rfl⟩
      exact hslot.stop (not_exists_ok_of_error e)

end Program

/-! ## Emitters -/

namespace Emit

variable {α β : Type}

/-- The emitter only asks discreet questions. -/
def Discreet (x : Emit α) : Prop :=
  x.run.Discreet

theorem Discreet.pure {a : α} : (Pure.pure a : Emit α).Discreet :=
  trivial

theorem Discreet.bind {x : Emit α} {f : α → Emit β} (hx : x.Discreet)
    (hf : ∀ a, (f a).Discreet) : (x >>= f).Discreet := by
  refine Program.Discreet.bind hx fun result => ?_
  cases result with
  | ok a => exact hf a
  | error e => exact trivial

theorem Discreet.check {result : Except GenerateError α} : (check result).Discreet := by
  cases result <;> trivial

theorem Discreet.value {slot default : String} {outer : Order} :
    (value slot outer default).Discreet :=
  .bind ⟨trivial, fun _ => trivial⟩ fun _ => .check

theorem Discreet.fieldText {slot : String} : (fieldText slot).Discreet :=
  .bind ⟨trivial, fun _ => trivial⟩ fun _ => .check

theorem Discreet.fieldNumber {slot : String} : (fieldNumber slot).Discreet :=
  .bind ⟨trivial, fun _ => trivial⟩ fun _ => .check

theorem Discreet.requireImport {key line : String} : (requireImport key line).Discreet :=
  ⟨trivial, fun _ => trivial⟩

theorem Discreet.provideHelper {key code : String} : (provideHelper key code).Discreet :=
  ⟨trivial, fun _ => trivial⟩

theorem compositional_discreet : Compositional fun _ x => x.Discreet where
  pure _ := .pure
  bind := .bind
  value := .value
  fieldText := .fieldText
  fieldNumber := .fieldNumber
  requireImport := .requireImport
  provideHelper := .provideHelper

end Emit

end Script

/-- From the journal `start`, the emitter of a block leads to one that goes on with the parts
    after `j`. -/
def Script.Emit.Recounts (value body : (inTask : Bool) → String → List (List Event))
    (parts : List (List Event)) (x : Emit Fragment) (start j : Journal) : Prop :=
  x.run.Leads (journalMoves value body)
    (fun result j' => j.Continues parts (∃ f, result = .ok f) j') start

namespace Emitters

open Script.Emit

variable {b : Block} (indent : String) {value body : Bool → String → List (List Event)}
  {j : Journal}

/-- A poll is warned of if no task is open, before its connection is told of. -/
theorem recounts_pullData (hpoll : b.type = pollType) :
    Recounts value body (value j.inTask "CONFIG") (pullData b indent) j
      (j.add (b.warnings j.inTask)) := by
  rintro - j rfl
  rintro recorded j ⟨hrecorded, rfl⟩
  have rest : ∀ start : Journal, Recounts value body (value start.inTask "CONFIG")
      (Emit.value "CONFIG" .none defaultNone >>= fun config => pure
        (.expression ("await pull_data_async(" ++ config ++ ")") .await)) start start := by
    intro start answer j' moved
    cases answer with
    | ok config => exact Journal.Continues.mono moved fun _ => ⟨config, rfl⟩
    | error e => exact Journal.Continues.mono moved fun h => absurd h (not_exists_ok_of_error e)
  dsimp only [Program.bind, Function.comp_apply, ExceptT.bindCont]
  split
  · next hout =>
    have hwarned : b.warnings j.inTask = [.pullOutsideTask b.id] :=
      if_pos ⟨hpoll, by simpa [hrecorded] using hout⟩
    rw [hwarned]
    rintro - _ rfl
    exact rest (j.add [.pullOutsideTask b.id])
  · next hin =>
    have hnone : b.warnings j.inTask = [] := if_neg fun h => hin (by simp [hrecorded, h.2])
    rw [hnone, Journal.add_nil]
    exact rest j

/-- The body of a task is told of while the task is open, and the task is closed again, also
    if its body has an error. -/
theorem recounts_taskDefinition :
    Recounts value body (body true "DO") (taskDefinition b indent) j j := by
  rintro - _ rfl
  rintro - _ rfl
  rintro id _ rfl
  cases id with
  | error e => exact Journal.Continues.none (not_exists_ok_of_error e)
  | ok id =>
  rintro interval _ rfl
  cases interval with
  | error e => exact Journal.Continues.none (not_exists_ok_of_error e)
  | ok interval =>
  rintro recorded j ⟨-, rfl⟩
  have rest : ∀ name, Recounts value body (body true "DO") (do
      perform (.registerTask name)
      perform .enterTask
      let body ← ask (.body "DO")
      perform .leaveTask
      return Fragment.statement (taskFunction name indent (← check body) interval)) j j := by
    rintro name - _ rfl
    rintro - _ rfl
    rintro code inside moved
    rintro - _ rfl
    -- whatever the answer is, the counter is lowered to what it was before the body
    obtain ⟨told, hprefix, rfl, hall⟩ := moved
    cases code with
    | ok code => exact ⟨told, hprefix, rfl, fun _ => hall ⟨code, rfl⟩⟩
    | error e => exact ⟨told, hprefix, rfl, fun h => absurd h (not_exists_ok_of_error e)⟩
  dsimp only [Program.bind, Function.comp_apply, ExceptT.bindCont]
  split
  · rintro _ k hreport
    have hsame : k = j.add [] := hreport
    obtain rfl : k = j := hsame.trans j.add_nil
    exact rest _
  · exact rest _

end Emitters

/-- Slots without blocks are passed over, and a task is open while its body is told of. -/
theorem flatMap_taskSlots (value body : Bool → String → List (List Event)) {b : Block}
    (htask : b.isTask = true) (inTask : Bool) :
    Catalog.taskDefinition.addressableSlots.flatMap (fun slot =>
      slotParts value body (inTask || b.opensTask (.input slot.name)) slot) = body true "DO" := by
  have hslots : Catalog.taskDefinition.addressableSlots =
      [⟨"TASK_ID", .text "01"⟩, ⟨"INTERVAL", .number 15 (some 1) none⟩, ⟨"DO", .body⟩] :=
    rfl
  have hopens : b.opensTask (.input "DO") = true := by simp [Block.opensTask, htask]
  simp [hslots, slotParts, hopens]

/-- The emitter of every built-in type warns of a poll if no task is open. Then the slots of
    the type are told of in their order, as in a task if a task is open or opened for the slot. -/
theorem recounts_builtins {e : Builtin} (he : e ∈ builtins) {b : Block}
    (hname : e.spec.type = b.type) (enabled : b.enabled = true) (indent : String)
    (value body : Bool → String → List (List Event)) (j : Journal) :
    Emit.Recounts value body
      (e.spec.addressableSlots.flatMap fun slot =>
        slotParts value body (j.inTask || b.opensTask (.input slot.name)) slot)
      (e.emitter b indent) j (j.add (b.warnings j.inTask)) := by
  by_cases htask : b.type = taskType
  · obtain rfl := Generator.builtin_task he (hname.trans htask)
    have hwarnings : b.warnings j.inTask = [] :=
      if_neg fun h => absurd (htask.symm.trans h.1) (by decide)
    rw [flatMap_taskSlots value body (by simp [Block.isTask, htask, enabled]), hwarnings,
      Journal.add_nil]
    exact Emitters.recounts_taskDefinition indent
  have hopens : ∀ edge, b.opensTask edge = false := fun edge => by
    simp [Block.opensTask, Block.isTask, htask]
  simp only [hopens, Bool.or_false]
  by_cases hpoll : b.type = pollType
  · obtain rfl : e = ⟨Catalog.pullData, Emitters.pullData⟩ :=
      builtin_eq_of_type he (by simp [builtins]) (hname.trans hpoll)
    have hslots : Catalog.pullData.addressableSlots.flatMap (slotParts value body j.inTask) =
        value j.inTask "CONFIG" := List.append_nil _
    rw [hslots]
    exact Emitters.recounts_pullData indent hpoll
  · have hwarnings : b.warnings j.inTask = [] := if_neg fun h => hpoll h.1
    rw [hwarnings, Journal.add_nil]
    have hdiscreet : (e.emitter b indent).Discreet :=
      composed_builtins Emit.compositional_discreet he (hname ▸ hpoll) (hname ▸ htask) b indent
    exact (visits_builtins he b indent).leads hdiscreet

end PollScript
