import PollScript.Emitters.Actions

/-!
# Emitters of literal and variable blocks

Texts and numbers become literals, and variables become names.
-/

namespace PollScript.Emitters

open Script

def text : Emitter := fun _ _ => do
  return .expression (quote (← Emit.fieldText "TEXT")) .atomic

/-- A number (`emit_number`). A sign in front binds less tightly than a name. -/
def mathNumber : Emitter := fun _ _ => do
  let value ← Emit.fieldNumber "NUM"
  return .expression (number value) (if value < 0 then .unarySign else .atomic)

def variablesSet : Emitter := fun _ _ => do
  let name := identifier (← Emit.fieldText "VAR")
  let value ← Emit.value "VALUE" .none defaultNone
  return .statement (name ++ " = " ++ value ++ "\n")

def variablesGet : Emitter := fun _ _ => do
  return .expression (identifier (← Emit.fieldText "VAR")) .atomic

end PollScript.Emitters
