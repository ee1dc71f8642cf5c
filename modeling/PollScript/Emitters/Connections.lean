import PollScript.Script.Emitter
import PollScript.Script.Literal

/-!
# Emitters of connection blocks

A connection becomes a call of its configuration class with one keyword
argument on each line. Sockets that are empty get the defaults of the class.
-/

namespace PollScript.Emitters

open Script

def defaultPort : String := "\"COM4\""

def defaultHost : String := "\"127.0.0.1\""

def defaultNetworkPort : String := "502"

def defaultBytesize : String := "8"

def defaultStopbits : String := "1"

/-- In seconds. -/
def defaultTimeout : String := "3.0"

def defaultSlaveId : String := "1"

def defaultStartAddress : String := "0"

def defaultCount : String := "2"

/-- A call with a keyword argument on each line (`call_with_kwargs`). -/
def callWithKeywords (callee : String) (arguments : List (String × String))
    (indent : String) : String :=
  callee ++ "(\n" ++
    ",\n".intercalate (arguments.map fun argument =>
      indent ++ argument.1 ++ "=" ++ argument.2) ++
    "\n)"

/-- A connection over a serial line, with the class of its framing
    (`emit_serial_config`). -/
def serialConfig (className : String) : Emitter := fun _ indent => do
  Emit.requireFrom "connection_type" className
  let port ← Emit.value "PORT" .none defaultPort
  let baudrate ← Emit.fieldText "BAUDRATE"
  let bytesize ← Emit.value "BYTESIZE" .none defaultBytesize
  let parity ← Emit.fieldText "PARITY"
  let stopbits ← Emit.value "STOPBITS" .none defaultStopbits
  let timeout ← Emit.value "TIMEOUT" .none defaultTimeout
  let slaveId ← Emit.value "SLAVE_ID" .none defaultSlaveId
  let startAddress ← Emit.value "START_ADDRESS" .none defaultStartAddress
  let count ← Emit.value "COUNT" .none defaultCount
  let functionCode ← Emit.fieldText "FUNCTION_CODE"
  return .expression
    (callWithKeywords className
      [("port", port), ("baudrate", baudrate), ("bytesize", bytesize),
       ("parity", quote parity), ("stopbits", stopbits), ("timeout", timeout),
       ("slave_id", slaveId), ("start_address", startAddress), ("count", count),
       ("function_code", functionCode)]
      indent)
    .functionCall

def rtuConfig : Emitter :=
  serialConfig "RTUConfig"

def asciiConfig : Emitter :=
  serialConfig "ASCIIConfig"

/-- A connection over a network (`emit_tcp_config`). -/
def tcpConfig : Emitter := fun _ indent => do
  Emit.requireFrom "connection_type" "TCPConfig"
  let host ← Emit.value "HOST" .none defaultHost
  let port ← Emit.value "PORT" .none defaultNetworkPort
  let timeout ← Emit.value "TIMEOUT" .none defaultTimeout
  let slaveId ← Emit.value "SLAVE_ID" .none defaultSlaveId
  let startAddress ← Emit.value "START_ADDRESS" .none defaultStartAddress
  let count ← Emit.value "COUNT" .none defaultCount
  let functionCode ← Emit.fieldText "FUNCTION_CODE"
  return .expression
    (callWithKeywords "TCPConfig"
      [("host", host), ("port", port), ("timeout", timeout), ("slave_id", slaveId),
       ("start_address", startAddress), ("count", count), ("function_code", functionCode)]
      indent)
    .functionCall

end PollScript.Emitters
