import PollScript.Catalog.Literals

/-!
# The default catalog

Every block type that comes with the library, in the order of the toolbox.

Results:

* `default_types`: the names of the block types.
-/

namespace PollScript.Catalog

/-- The block types, in the order of the toolbox (`default_catalog`). -/
def default : List BlockSpec :=
  [rtuConfig, asciiConfig, tcpConfig, pullData, setInterval, getField, taskDefinition,
   getRegister, getLimiter, dcpUpdate, alarmEvaluator, log, text, mathNumber, variablesSet,
   variablesGet]

/-- The names of the block types. -/
theorem default_types :
    default.map (·.type) =
      ["RTU_config", "ASCII_config", "TCP_config", "modbus_pull_data", "set_modbus_interval",
       "modbus_get_field", "modbus_task_definition", "modbus_get_register",
       "modbus_get_limiter", "modbus_dcp_update", "modbus_alarm_evaluator", "modbus_log",
       "text", "math_number", "variables_set", "variables_get"] :=
  rfl

end PollScript.Catalog
