import PollScript.Catalog.Connections

/-!
# Action blocks

The block types that do something with a connection or a result: poll a device,
look into what it answered, update values, judge them, log them, and repeat
other blocks as a task.
-/

namespace PollScript.Catalog

def actionColour : UInt16 := 230

/-- The parts of a poll's result (`RESULT_FIELD_OPTIONS`). -/
def resultFields : List (String × String) :=
  [("Raw Hex", "raw"), ("Slave ID", "slave_id"), ("Registers", "registers"),
   ("Error", "error")]

/-- A socket for a poll's result. -/
def resultSocket (name : String) : Slot :=
  ⟨name, .value (some ["Array", "Object"])⟩

def anySocket (name : String) : Slot :=
  ⟨name, .value none⟩

/-- A block type that gives a value. -/
def valueBlock (type message : String) (slots : List Slot) (output : Output)
    (colour : UInt16) (tooltip : String) : BlockSpec where
  type
  message
  slots
  output := some output
  followsOthers := false
  othersFollow := false
  colour
  tooltip
  helpUrl := ""

/-- A block type that stands in a chain. -/
def chainBlock (type message : String) (slots : List Slot) (colour : UInt16)
    (tooltip : String) : BlockSpec where
  type
  message
  slots
  output := none
  followsOthers := true
  othersFollow := true
  colour
  tooltip
  helpUrl := ""

def pullData : BlockSpec :=
  valueBlock "modbus_pull_data" "Pull Data Config: %1"
    [⟨"CONFIG", .value (some [connectionTag])⟩] (.tag "Array") actionColour
    "Executes the Modbus request using the provided configuration."

def setInterval : BlockSpec :=
  chainBlock "set_modbus_interval" "Set Poll Interval (ms): %1"
    [numberSocket "INTERVAL_MS"] actionColour
    "Sets the frequency of Modbus polling in milliseconds."

def getField : BlockSpec :=
  valueBlock "modbus_get_field" "Get %1 from %2"
    [⟨"FIELD", .dropdown resultFields⟩, resultSocket "DATA"] .any actionColour
    "Extracts a specific field from the Modbus result."

/-- Repeats other blocks. It begins a chain and ends one. -/
def taskDefinition : BlockSpec where
  type := "modbus_task_definition"
  message := "Task %1 (Interval %2s) %3 %4"
  slots := [⟨"TASK_ID", .text "01"⟩, ⟨"INTERVAL", .number 15 (some 1) none⟩, rowBreak,
    ⟨"DO", .body⟩]
  output := none
  followsOthers := false
  othersFollow := false
  colour := 120
  tooltip := "Defines a periodic task."
  helpUrl := ""

def getRegister : BlockSpec :=
  valueBlock "modbus_get_register" "Get Register Index %1 from %2"
    [numberSocket "INDEX", resultSocket "DATA"] .any actionColour
    "Gets a value from the registers list by index."

def getLimiter : BlockSpec :=
  valueBlock "modbus_get_limiter" "Get Limiter %1" [⟨"LIMITER_NAME", .text "DP_Limit_LV1"⟩]
    (.tag "Number") actionColour "Retrieves the value of a specific limiter."

def dcpUpdate : BlockSpec :=
  chainBlock "modbus_dcp_update" "DCP Update %1 = %2"
    [⟨"NAME", .text "LPS02___X"⟩, anySocket "VALUE"] 160
    "Updates a value in the DCP system."

def alarmEvaluator : BlockSpec :=
  valueBlock "modbus_alarm_evaluator" "Eval Alarm Val: %1 LV1: %2 LV2: %3 LV3: %4"
    [numberSocket "VAL", numberSocket "LV1", numberSocket "LV2", numberSocket "LV3"]
    (.tag "String") 210 "Returns LV1/LV2/LV3/LV0 based on value thresholds."

def log : BlockSpec :=
  chainBlock "modbus_log" "Log %1" [anySocket "MSG"] 65 "Logs a message."

end PollScript.Catalog
