import PollScript.Dictionary
import PollScript.Emitters.Literals

/-!
# The default emitters

An emitter for every block type of the default catalog.

Results:

* `default_keys`: the block types that have an emitter.
-/

namespace PollScript.Emitters

/-- The emitters of the default catalog by the names of their types
    (`register_default_emitters`, `create_emitter_by_name`). -/
def default : List (String × Script.Emitter) :=
  [("RTU_config", rtuConfig),
   ("ASCII_config", asciiConfig),
   ("TCP_config", tcpConfig),
   ("modbus_pull_data", pullData),
   ("set_modbus_interval", setInterval),
   ("modbus_get_field", getField),
   ("modbus_task_definition", taskDefinition),
   ("modbus_get_register", getRegister),
   ("modbus_get_limiter", getLimiter),
   ("modbus_dcp_update", dcpUpdate),
   ("modbus_alarm_evaluator", alarmEvaluator),
   ("modbus_log", log),
   ("text", text),
   ("math_number", mathNumber),
   ("variables_set", variablesSet),
   ("variables_get", variablesGet)]

/-- The block types that have an emitter. -/
theorem default_keys :
    Dictionary.keys default =
      ["RTU_config", "ASCII_config", "TCP_config", "modbus_pull_data", "set_modbus_interval",
       "modbus_get_field", "modbus_task_definition", "modbus_get_register",
       "modbus_get_limiter", "modbus_dcp_update", "modbus_alarm_evaluator", "modbus_log",
       "text", "math_number", "variables_set", "variables_get"] :=
  rfl

end PollScript.Emitters
