import PollScript.Proofs.Standard

/-!
# Composed emitters

Most of the built-in emitters ask for slots and request imports and helper definitions, one
after the other, and do nothing else. So a judgement that holds of each of these questions,
and of a sequence if it holds of its parts, holds of all these emitters. The exceptions are
polls, which look at whether a task is open, and tasks, which open one.

Results:

* `composed_builtins`: a compositional judgement holds of the emitter of every built-in type
  but polls and tasks.
-/

namespace PollScript

open Script

namespace Script.Emit

/-- The judgement holds of questions about slots and of requests, and of what is composed of
    them. -/
structure Compositional (J : (α : Type) → Emit α → Prop) : Prop where
  pure : ∀ {α : Type} (a : α), J α (Pure.pure a)
  bind : ∀ {α β : Type} {x : Emit α} {f : α → Emit β}, J α x → (∀ a, J β (f a)) → J β (x >>= f)
  value : ∀ {slot default : String} {outer : Order}, J String (value slot outer default)
  fieldText : ∀ {slot : String}, J String (fieldText slot)
  fieldNumber : ∀ {slot : String}, J Float (fieldNumber slot)
  requireImport : ∀ {key line : String}, J Unit (requireImport key line)
  provideHelper : ∀ {key code : String}, J Unit (provideHelper key code)

theorem Compositional.requireFrom {J : (α : Type) → Emit α → Prop} (h : Compositional J)
    {moduleName name : String} : J Unit (requireFrom moduleName name) :=
  h.requireImport

end Script.Emit

namespace Emitters

variable {J : (α : Type) → Emit α → Prop} (h : Emit.Compositional J) (b : Block)
  (indent : String)

include h

theorem composed_serialConfig (className : String) : J _ (serialConfig className b indent) := by
  refine h.bind h.requireFrom fun _ => ?_
  refine h.bind h.value fun port => ?_
  refine h.bind h.fieldText fun baudrate => ?_
  refine h.bind h.value fun bytesize => ?_
  refine h.bind h.fieldText fun parity => ?_
  refine h.bind h.value fun stopbits => ?_
  refine h.bind h.value fun timeout => ?_
  refine h.bind h.value fun slaveId => ?_
  refine h.bind h.value fun startAddress => ?_
  refine h.bind h.value fun count => ?_
  refine h.bind h.fieldText fun functionCode => ?_
  exact h.pure _

theorem composed_tcpConfig : J _ (tcpConfig b indent) := by
  refine h.bind h.requireFrom fun _ => ?_
  refine h.bind h.value fun host => ?_
  refine h.bind h.value fun port => ?_
  refine h.bind h.value fun timeout => ?_
  refine h.bind h.value fun slaveId => ?_
  refine h.bind h.value fun startAddress => ?_
  refine h.bind h.value fun count => ?_
  refine h.bind h.fieldText fun functionCode => ?_
  exact h.pure _

theorem composed_setInterval : J _ (setInterval b indent) :=
  h.bind h.requireFrom fun _ => h.bind h.value fun _ => h.pure _

theorem composed_getField : J _ (getField b indent) :=
  h.bind h.fieldText fun _ => h.bind h.value fun _ => h.pure _

theorem composed_getRegister : J _ (getRegister b indent) :=
  h.bind h.value fun _ => h.bind h.value fun _ => h.pure _

theorem composed_getLimiter : J _ (getLimiter b indent) :=
  h.bind h.requireFrom fun _ => h.bind h.fieldText fun _ => h.pure _

theorem composed_dcpUpdate : J _ (dcpUpdate b indent) :=
  h.bind h.requireFrom fun _ => h.bind h.fieldText fun _ => h.bind h.value fun _ => h.pure _

theorem composed_alarmEvaluator : J _ (alarmEvaluator b indent) := by
  refine h.bind h.provideHelper fun _ => ?_
  refine h.bind h.value fun reading => ?_
  refine h.bind h.value fun lv1 => ?_
  refine h.bind h.value fun lv2 => ?_
  refine h.bind h.value fun lv3 => ?_
  exact h.pure _

theorem composed_log : J _ (log b indent) :=
  h.bind h.requireImport fun _ => h.bind h.provideHelper fun _ => h.bind h.value fun _ => h.pure _

theorem composed_text : J _ (text b indent) :=
  h.bind h.fieldText fun _ => h.pure _

theorem composed_mathNumber : J _ (mathNumber b indent) :=
  h.bind h.fieldNumber fun _ => h.pure _

theorem composed_variablesSet : J _ (variablesSet b indent) :=
  h.bind h.fieldText fun _ => h.bind h.value fun _ => h.pure _

theorem composed_variablesGet : J _ (variablesGet b indent) :=
  h.bind h.fieldText fun _ => h.pure _

end Emitters

/-- A compositional judgement holds of the emitter of every built-in type but polls and
    tasks. -/
theorem composed_builtins {J : (α : Type) → Emit α → Prop} (h : Emit.Compositional J)
    {e : Builtin} (he : e ∈ builtins) (hpoll : e.spec.type ≠ "modbus_pull_data")
    (htask : e.spec.type ≠ "modbus_task_definition") (b : Block) (indent : String) :
    J _ (e.emitter b indent) := by
  simp only [builtins, List.mem_cons, List.not_mem_nil, or_false] at he
  rcases he with rfl | rfl | rfl | rfl | rfl | rfl | rfl | rfl | rfl | rfl | rfl | rfl | rfl |
    rfl | rfl | rfl
  · exact Emitters.composed_serialConfig h b indent _
  · exact Emitters.composed_serialConfig h b indent _
  · exact Emitters.composed_tcpConfig h b indent
  · exact absurd rfl hpoll
  · exact Emitters.composed_setInterval h b indent
  · exact Emitters.composed_getField h b indent
  · exact absurd rfl htask
  · exact Emitters.composed_getRegister h b indent
  · exact Emitters.composed_getLimiter h b indent
  · exact Emitters.composed_dcpUpdate h b indent
  · exact Emitters.composed_alarmEvaluator h b indent
  · exact Emitters.composed_log h b indent
  · exact Emitters.composed_text h b indent
  · exact Emitters.composed_mathNumber h b indent
  · exact Emitters.composed_variablesSet h b indent
  · exact Emitters.composed_variablesGet h b indent

end PollScript
