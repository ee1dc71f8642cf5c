import PollScript.Emitters.Connections
import PollScript.Script.Alarm
import PollScript.Script.TaskName
import PollScript.Text.Lines

/-!
# Emitters of action blocks

Polls, tasks, results, updates, alarms and logging.
-/

namespace PollScript.Emitters

open Script

/-- The code for an empty socket for a poll's result. -/
def defaultData : String := "\x7b\x7d"

/-- The code for an empty socket for a number. -/
def defaultNumber : String := "0"

/-- The code for an empty socket without a default of its own. -/
def defaultNone : String := "None"

def defaultInterval : String := "1000"

def defaultMessage : String := "\"\""

/-- A poll of a device, which is awaited (`emit_pull_data`). Outside of a task
    it is reported before the configuration is emitted. -/
def pullData : Emitter := fun block _ => do
  Emit.requireFrom "poll" "pull_data_async"
  let recorded ← Emit.recorded
  if !recorded.inTask then Emit.report (.pullOutsideTask block.id)
  let config ← Emit.value "CONFIG" .none defaultNone
  return .expression ("await pull_data_async(" ++ config ++ ")") .await

/-- The time between two polls (`emit_set_interval`). -/
def setInterval : Emitter := fun _ _ => do
  Emit.requireFrom "poll" "set_interval_frequency"
  let interval ← Emit.value "INTERVAL_MS" .none defaultInterval
  return .statement ("set_interval_frequency(" ++ interval ++ ")\n")

/-- A part of a poll's result (`emit_get_field`). -/
def getField : Emitter := fun _ _ => do
  let field ← Emit.fieldText "FIELD"
  let data ← Emit.value "DATA" .member defaultData
  return .expression (data ++ ".get(" ++ quote field ++ ")") .functionCall

/-- The function of a task, given the code of its body one level deep. -/
def taskFunction (name indent body : String) (interval : Float) : String :=
  "async def " ++ name ++ "():\n" ++
  indent ++ "while True:\n" ++
  indent ++ indent ++ "set_interval_frequency(" ++ number (interval * 1000) ++ ")\n" ++
  Text.indentLines indent body ++
  indent ++ indent ++ "await asyncio.sleep(" ++ number interval ++ ")\n"

/-- A task: a function that repeats its body, registered to be launched
    (`emit_task_definition`). The body is closed again even if it has an error.
    -/
def taskDefinition : Emitter := fun block indent => do
  Emit.requireImport "asyncio" "import asyncio"
  Emit.requireFrom "poll" "set_interval_frequency"
  let id := nameFragment (← Emit.fieldText "TASK_ID")
  let interval ← Emit.fieldNumber "INTERVAL"
  let recorded ← Emit.recorded
  let name := TaskName.choose recorded.tasks id
  if recorded.tasks.contains (TaskName.plain id) then
    Emit.report (.taskRenamed block.id name)
  Emit.perform (.registerTask name)
  Emit.perform .enterTask
  let body ← Emit.ask (.body "DO")
  Emit.perform .leaveTask
  return .statement (taskFunction name indent (← Emit.check body) interval)

/-- A register of a poll's result (`emit_get_register`). The index is emitted
    before the result. -/
def getRegister : Emitter := fun _ _ => do
  let index ← Emit.value "INDEX" .none defaultNumber
  let data ← Emit.value "DATA" .member defaultData
  return .expression (data ++ ".get(\"registers\", [])[" ++ index ++ "]") .member

def getLimiter : Emitter := fun _ _ => do
  Emit.requireFrom "dcp" "get_limiter"
  let name ← Emit.fieldText "LIMITER_NAME"
  return .expression ("get_limiter(" ++ quote name ++ ")") .functionCall

def dcpUpdate : Emitter := fun _ _ => do
  Emit.requireFrom "dcp" "dcp_update"
  let name ← Emit.fieldText "NAME"
  let value ← Emit.value "VALUE" .none defaultNone
  return .statement ("dcp_update(" ++ quote name ++ ", " ++ value ++ ")\n")

/-- The level of a reading, by a call of the helper function
    (`emit_alarm_evaluator`). -/
def alarmEvaluator : Emitter := fun _ indent => do
  Emit.provideHelper Alarm.helperName (Alarm.helperDefinition indent)
  let reading ← Emit.value "VAL" .none defaultNumber
  let lv1 ← Emit.value "LV1" .none defaultNumber
  let lv2 ← Emit.value "LV2" .none defaultNumber
  let lv3 ← Emit.value "LV3" .none defaultNumber
  return .expression
    (Alarm.helperName ++ "(" ++ ", ".intercalate [reading, lv1, lv2, lv3] ++ ")")
    .functionCall

/-- The setup of the log. -/
def loggingSetup (indent : String) : String :=
  callWithKeywords "logging.basicConfig"
    [("level", "logging.INFO"),
     ("format", quote "%(asctime)s [%(levelname)s] %(message)s"),
     ("datefmt", quote "%H:%M:%S")]
    indent

/-- A message in the log (`emit_log`), which is set up once. -/
def log : Emitter := fun _ indent => do
  Emit.requireImport "logging" "import logging"
  Emit.provideHelper "logging_config" (loggingSetup indent)
  let message ← Emit.value "MSG" .none defaultMessage
  return .statement ("logging.info(" ++ message ++ ")\n")

end PollScript.Emitters
