import PollScript.Proofs.Contract
import PollScript.Proofs.Standard

/-!
# Slots that an emitter visits

The emitters and the catalog are written apart, and nothing in the code ties
them together. They do agree: the emitter of a built-in type asks for each
addressable slot of the type once, in the order of the catalog, and with the
question that belongs to the slot's kind. It fails with the first error that it
is answered with, and only then.

Results:

* `Program.Visits.run`: the errors of an emitter that visits slots are those of
  the slots, in their order.
* `visits_builtins`: the emitter of every built-in type visits the slots of the
  type.
-/

namespace PollScript

open Script

/-- Whether a result is an error, and which one. -/
def verdict {ε α : Type} (result : Except ε α) : Except ε Unit :=
  result.map fun _ => ()

@[simp] theorem verdict_ok {ε α : Type} (a : α) :
    verdict (.ok a : Except ε α) = .ok () :=
  rfl

@[simp] theorem verdict_error {ε α : Type} (e : ε) :
    verdict (.error e : Except ε α) = .error e :=
  rfl

theorem verdict_eq_error_iff {ε α : Type} {result : Except ε α} {e : ε} :
    verdict result = .error e ↔ result = .error e := by
  cases result <;> simp

theorem verdict_eq_ok_iff {ε α : Type} {result : Except ε α} :
    verdict result = .ok () ↔ ∃ a, result = .ok a := by
  cases result <;> simp

/-- The question about a slot, by the slot's kind. -/
def Slot.Poses (slot : Slot) : Query → Prop
  | .value name _ _ => name = slot.name ∧ ∃ check, slot.kind = .value check
  | .body name => name = slot.name ∧ slot.kind = .body
  | .fieldText name => name = slot.name ∧
      ((∃ default, slot.kind = .text default) ∨ ∃ options, slot.kind = .dropdown options)
  | .fieldNumber name => name = slot.name ∧
      ∃ default least greatest, slot.kind = .number default least greatest
  | _ => False

namespace Script

namespace Query

/-- Whether the question is about no slot. -/
def IsAside : Query → Prop
  | .recorded | .context _ | .report _ => True
  | _ => False

/-- Whether an answer is an error, and which one. -/
def verdict : (query : Query) → query.Answer → Except GenerateError Unit
  | .value .., answer | .body _, answer | .fieldText _, answer => PollScript.verdict answer
  | .fieldNumber _, answer => PollScript.verdict answer
  | .recorded, _ | .context _, _ | .report _, _ => .ok ()

end Query

/-- Whether the code of a block is a value. -/
def Fragment.isValue : Fragment → Bool
  | .expression .. => true
  | .statement _ => false

namespace Program

/-- The program ends with the error, whatever it does to the context before. -/
def Fails (e : GenerateError) : Program (Except GenerateError Fragment) → Prop
  | .done result => result = .error e
  | .ask (.context _) next => ∀ answer, (next answer).Fails e
  | .ask _ _ => False

/-- The program asks for the slots in their order, each with the question of its
    kind, and fails with the first error that it is answered with. Its fragment
    is a value or not, as `isValue` says. -/
inductive Visits (isValue : Bool) : List Slot → Program (Except GenerateError Fragment) → Prop
  | done {f : Fragment} (kind : f.isValue = isValue) : Visits isValue [] (.done (.ok f))
  /-- The program asks about something else. -/
  | aside {slots : List Slot} {query : Query}
      {next : query.Answer → Program (Except GenerateError Fragment)}
      (other : query.IsAside) (rest : ∀ answer, Visits isValue slots (next answer)) :
      Visits isValue slots (.ask query next)
  | visit {slot : Slot} {slots : List Slot} {query : Query}
      {next : query.Answer → Program (Except GenerateError Fragment)}
      (poses : slot.Poses query)
      (rest : ∀ answer, query.verdict answer = .ok () → Visits isValue slots (next answer))
      (fails : ∀ answer e, query.verdict answer = .error e → (next answer).Fails e) :
      Visits isValue (slot :: slots) (.ask query next)

variable {σ : Type} {answer : (query : Query) → StateM σ query.Answer}

theorem forM_slots_cons (judge : Slot → Except GenerateError Unit) (slot : Slot)
    (slots : List Slot) :
    (slot :: slots).forM judge = judge slot >>= fun _ => slots.forM judge :=
  rfl

theorem Fails.run {e : GenerateError} {p : Program (Except GenerateError Fragment)}
    (h : p.Fails e) (s : σ) : ((p.run answer).run s).1 = .error e := by
  induction p generalizing s with
  | done result => exact h
  | ask query next ih =>
    cases query with
    | context operation =>
      show (((next ((answer (.context operation)).run s).1).run answer).run
        ((answer (.context operation)).run s).2).1 = _
      exact ih _ (h _) _
    | _ => exact h.elim

/-- If the questions about each slot are always answered with the verdict of the
    slot, then a program that visits slots ends with their first error, or else
    with a fragment of its kind. -/
theorem Visits.run {judge : Slot → Except GenerateError Unit} {isValue : Bool}
    {slots : List Slot} {p : Program (Except GenerateError Fragment)}
    (h : p.Visits isValue slots)
    (judges : ∀ slot ∈ slots, ∀ query, slot.Poses query → ∀ s : σ,
      query.verdict ((answer query).run s).1 = judge slot) (s : σ) :
    PollScript.verdict ((p.run answer).run s).1 = slots.forM judge ∧
      ∀ f, ((p.run answer).run s).1 = .ok f → f.isValue = isValue := by
  induction h generalizing s with
  | done kind =>
    refine ⟨rfl, fun f hf => ?_⟩
    cases hf
    exact kind
  | @aside slots query next other rest ih => exact ih _ judges _
  | @visit slot slots query next poses rest fails ih =>
    have hslot := judges slot List.mem_cons_self query poses s
    rw [forM_slots_cons]
    cases hjudge : judge slot with
    | ok _ =>
      rw [hjudge] at hslot
      exact ih _ hslot (fun other hother => judges other (List.mem_cons_of_mem _ hother)) _
    | error e =>
      rw [hjudge] at hslot
      have herror : (((ask query next).run answer).run s).1 = .error e :=
        (fails _ e hslot).run _
      rw [herror]
      exact ⟨rfl, fun _ hf => nomatch hf⟩

end Program

/-! ## Emitters step by step -/

namespace Emit

/-- The emitter asks for the slots in their order and for nothing else. -/
def Visits (isValue : Bool) (slots : List Slot) (x : Emit Fragment) : Prop :=
  x.run.Visits isValue slots

variable {isValue : Bool} {slots : List Slot} {name : String}

theorem visits_pure {f : Fragment} (kind : f.isValue = isValue) : Visits isValue [] (pure f) :=
  .done kind

theorem visits_value {check : Option (List String)} {outer : Order} {default : String}
    {f : String → Emit Fragment} (rest : ∀ code, Visits isValue slots (f code)) :
    Visits isValue (⟨name, .value check⟩ :: slots) (value name outer default >>= f) := by
  refine .visit ⟨rfl, check, rfl⟩ ?_ ?_
  · intro answer hanswer
    obtain ⟨code, rfl⟩ := verdict_eq_ok_iff.mp hanswer
    exact rest code
  · intro answer e hanswer
    cases verdict_eq_error_iff.mp hanswer
    rfl

theorem visits_fieldText {kind : SlotKind} {f : String → Emit Fragment}
    (field : (∃ default, kind = .text default) ∨ ∃ options, kind = .dropdown options)
    (rest : ∀ text, Visits isValue slots (f text)) :
    Visits isValue (⟨name, kind⟩ :: slots) (fieldText name >>= f) := by
  refine .visit ⟨rfl, field⟩ ?_ ?_
  · intro answer hanswer
    obtain ⟨text, rfl⟩ := verdict_eq_ok_iff.mp hanswer
    exact rest text
  · intro answer e hanswer
    cases verdict_eq_error_iff.mp hanswer
    rfl

theorem visits_fieldNumber {default : Float} {least greatest : Option Float}
    {f : Float → Emit Fragment} (rest : ∀ x, Visits isValue slots (f x)) :
    Visits isValue (⟨name, .number default least greatest⟩ :: slots)
      (fieldNumber name >>= f) := by
  refine .visit ⟨rfl, default, least, greatest, rfl⟩ ?_ ?_
  · intro answer hanswer
    obtain ⟨x, rfl⟩ := verdict_eq_ok_iff.mp hanswer
    exact rest x
  · intro answer e hanswer
    cases verdict_eq_error_iff.mp hanswer
    rfl

theorem visits_perform {operation : Context.Operation} {f : Unit → Emit Fragment}
    (rest : Visits isValue slots (f ())) : Visits isValue slots (perform operation >>= f) :=
  .aside trivial fun _ => rest

theorem visits_recorded {f : Context.Recorded → Emit Fragment}
    (rest : ∀ recorded, Visits isValue slots (f recorded)) :
    Visits isValue slots (recorded >>= f) :=
  .aside trivial rest

theorem visits_report {event : Event} {f : Unit → Emit Fragment}
    (rest : Visits isValue slots (f ())) : Visits isValue slots (report event >>= f) :=
  .aside trivial fun _ => rest

end Emit

end Script

/-! ## The built-in emitters -/

namespace Emitters

open Script.Emit

variable (b : Block) (indent : String)

theorem visits_serialConfig (type title tooltip className : String) :
    Visits true (Catalog.serialConfig type title tooltip).addressableSlots
      (serialConfig className b indent) := by
  refine visits_perform ?_
  refine visits_value fun port => ?_
  refine visits_fieldText (.inr ⟨_, rfl⟩) fun baudrate => ?_
  refine visits_value fun bytesize => ?_
  refine visits_fieldText (.inr ⟨_, rfl⟩) fun parity => ?_
  refine visits_value fun stopbits => ?_
  refine visits_value fun timeout => ?_
  refine visits_value fun slaveId => ?_
  refine visits_value fun startAddress => ?_
  refine visits_value fun count => ?_
  refine visits_fieldText (.inr ⟨_, rfl⟩) fun functionCode => ?_
  exact visits_pure rfl

theorem visits_tcpConfig :
    Visits true Catalog.tcpConfig.addressableSlots (tcpConfig b indent) := by
  refine visits_perform ?_
  refine visits_value fun host => ?_
  refine visits_value fun port => ?_
  refine visits_value fun timeout => ?_
  refine visits_value fun slaveId => ?_
  refine visits_value fun startAddress => ?_
  refine visits_value fun count => ?_
  refine visits_fieldText (.inr ⟨_, rfl⟩) fun functionCode => ?_
  exact visits_pure rfl

theorem visits_pullData :
    Visits true Catalog.pullData.addressableSlots (pullData b indent) := by
  refine visits_perform ?_
  refine visits_recorded fun recorded => ?_
  have rest : Visits true Catalog.pullData.addressableSlots
      (value "CONFIG" .none defaultNone >>= fun config => pure
        (.expression ("await pull_data_async(" ++ config ++ ")") .await)) :=
    visits_value fun config => visits_pure rfl
  dsimp only
  split
  · exact visits_report rest
  · exact rest

theorem visits_setInterval :
    Visits false Catalog.setInterval.addressableSlots (setInterval b indent) :=
  visits_perform (visits_value fun _ => visits_pure rfl)

theorem visits_getField :
    Visits true Catalog.getField.addressableSlots (getField b indent) :=
  visits_fieldText (.inr ⟨_, rfl⟩) fun _ => visits_value fun _ => visits_pure rfl

theorem visits_taskDefinition :
    Visits false Catalog.taskDefinition.addressableSlots (taskDefinition b indent) := by
  refine visits_perform ?_
  refine visits_perform ?_
  refine visits_fieldText (.inl ⟨_, rfl⟩) fun text => ?_
  refine visits_fieldNumber fun interval => ?_
  refine visits_recorded fun recorded => ?_
  -- the answer for the body is only looked at after the task is closed
  have rest : ∀ name, Visits false [⟨"DO", .body⟩] (do
      perform (.registerTask name)
      perform .enterTask
      let body ← ask (.body "DO")
      perform .leaveTask
      return .statement (taskFunction name indent (← check body) interval)) := by
    intro name
    refine visits_perform (visits_perform ?_)
    refine .visit ⟨rfl, rfl⟩ ?_ ?_
    · intro answer hanswer
      obtain ⟨body, rfl⟩ := verdict_eq_ok_iff.mp hanswer
      exact visits_perform (visits_pure rfl)
    · intro answer e hanswer
      cases verdict_eq_error_iff.mp hanswer
      exact fun _ => rfl
  dsimp only
  split
  · exact visits_report (rest _)
  · exact rest _

theorem visits_getRegister :
    Visits true Catalog.getRegister.addressableSlots (getRegister b indent) :=
  visits_value fun _ => visits_value fun _ => visits_pure rfl

theorem visits_getLimiter :
    Visits true Catalog.getLimiter.addressableSlots (getLimiter b indent) :=
  visits_perform (visits_fieldText (.inl ⟨_, rfl⟩) fun _ => visits_pure rfl)

theorem visits_dcpUpdate :
    Visits false Catalog.dcpUpdate.addressableSlots (dcpUpdate b indent) :=
  visits_perform (visits_fieldText (.inl ⟨_, rfl⟩) fun _ => visits_value fun _ =>
    visits_pure rfl)

theorem visits_alarmEvaluator :
    Visits true Catalog.alarmEvaluator.addressableSlots (alarmEvaluator b indent) := by
  refine visits_perform ?_
  refine visits_value fun reading => ?_
  refine visits_value fun lv1 => ?_
  refine visits_value fun lv2 => ?_
  refine visits_value fun lv3 => ?_
  exact visits_pure rfl

theorem visits_log : Visits false Catalog.log.addressableSlots (log b indent) :=
  visits_perform (visits_perform (visits_value fun _ => visits_pure rfl))

theorem visits_text : Visits true Catalog.text.addressableSlots (text b indent) :=
  visits_fieldText (.inl ⟨_, rfl⟩) fun _ => visits_pure rfl

theorem visits_mathNumber :
    Visits true Catalog.mathNumber.addressableSlots (mathNumber b indent) :=
  visits_fieldNumber fun _ => visits_pure rfl

theorem visits_variablesSet :
    Visits false Catalog.variablesSet.addressableSlots (variablesSet b indent) :=
  visits_fieldText (.inl ⟨_, rfl⟩) fun _ => visits_value fun _ => visits_pure rfl

theorem visits_variablesGet :
    Visits true Catalog.variablesGet.addressableSlots (variablesGet b indent) :=
  visits_fieldText (.inl ⟨_, rfl⟩) fun _ => visits_pure rfl

end Emitters

/-- The emitter of every built-in type asks for the addressable slots of the
    type, in their order, and gives a value if the type has an output. -/
theorem visits_builtins {e : Builtin} (h : e ∈ builtins) (b : Block) (indent : String) :
    Emit.Visits e.spec.isValueBlock e.spec.addressableSlots (e.emitter b indent) := by
  simp only [builtins, List.mem_cons, List.not_mem_nil, or_false] at h
  rcases h with rfl | rfl | rfl | rfl | rfl | rfl | rfl | rfl | rfl | rfl | rfl | rfl | rfl |
    rfl | rfl | rfl
  · exact Emitters.visits_serialConfig b indent _ _ _ _
  · exact Emitters.visits_serialConfig b indent _ _ _ _
  · exact Emitters.visits_tcpConfig b indent
  · exact Emitters.visits_pullData b indent
  · exact Emitters.visits_setInterval b indent
  · exact Emitters.visits_getField b indent
  · exact Emitters.visits_taskDefinition b indent
  · exact Emitters.visits_getRegister b indent
  · exact Emitters.visits_getLimiter b indent
  · exact Emitters.visits_dcpUpdate b indent
  · exact Emitters.visits_alarmEvaluator b indent
  · exact Emitters.visits_log b indent
  · exact Emitters.visits_text b indent
  · exact Emitters.visits_mathNumber b indent
  · exact Emitters.visits_variablesSet b indent
  · exact Emitters.visits_variablesGet b indent

end PollScript
