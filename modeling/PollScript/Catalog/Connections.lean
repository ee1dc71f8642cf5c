import PollScript.Catalog.Spec

/-!
# Connection blocks

The block types that configure a connection to a device: two serial framings
and TCP. They take their numbers and texts through sockets and give a value
with a tag of its own.
-/

namespace PollScript.Catalog

def connectionColour : UInt16 := 160

/-- The tag of connection values (`MODBUS_CONFIG`). -/
def connectionTag : String := "ModbusConfig"

def baudrates : List (String × String) :=
  [("9600", "9600"), ("19200", "19200"), ("115200", "115200")]

def parities : List (String × String) :=
  [("None (N)", "N"), ("Even (E)", "E"), ("Odd (O)", "O")]

/-- What a request reads. -/
def functionCodes : List (String × String) :=
  [("Coils (1)", "1"), ("Discrete Inputs (2)", "2"), ("Holding Registers (3)", "3"),
   ("Input Registers (4)", "4")]

def numberSocket (name : String) : Slot :=
  ⟨name, .value (some ["Number"])⟩

def textSocket (name : String) : Slot :=
  ⟨name, .value (some ["String"])⟩

def rowBreak : Slot :=
  ⟨"", .rowBreak⟩

/-- The block type of a serial framing (`serial_config`). -/
def serialConfig (type title tooltip : String) : BlockSpec where
  type
  message := title ++ " %1 Port: %2 Baudrate: %3 Bytesize: %4 Parity: %5 Stopbits: %6 " ++
    "Timeout: %7 Slave ID: %8 Addr: %9 Count: %10 FC: %11"
  slots := [rowBreak, textSocket "PORT", ⟨"BAUDRATE", .dropdown baudrates⟩,
    numberSocket "BYTESIZE", ⟨"PARITY", .dropdown parities⟩, numberSocket "STOPBITS",
    numberSocket "TIMEOUT", numberSocket "SLAVE_ID", numberSocket "START_ADDRESS",
    numberSocket "COUNT", ⟨"FUNCTION_CODE", .dropdown functionCodes⟩]
  output := some (.tag connectionTag)
  followsOthers := false
  othersFollow := false
  colour := connectionColour
  tooltip
  helpUrl := ""

/-- Serial connections in binary framing. -/
def rtuConfig : BlockSpec :=
  serialConfig "RTU_config" "MODBUS RTU Config" "Configures a Modbus RTU serial connection."

/-- Serial connections in text framing. -/
def asciiConfig : BlockSpec :=
  serialConfig "ASCII_config" "MODBUS ASCII Config"
    "Configures a Modbus ASCII serial connection."

/-- Connections over a network. -/
def tcpConfig : BlockSpec where
  type := "TCP_config"
  message := "MODBUS TCP Config %1 Host: %2 Port: %3 Timeout: %4 Slave ID: %5 " ++
    "Addr: %6 Count: %7 FC: %8"
  slots := [rowBreak, textSocket "HOST", numberSocket "PORT", numberSocket "TIMEOUT",
    numberSocket "SLAVE_ID", numberSocket "START_ADDRESS", numberSocket "COUNT",
    ⟨"FUNCTION_CODE", .dropdown functionCodes⟩]
  output := some (.tag connectionTag)
  followsOthers := false
  othersFollow := false
  colour := connectionColour
  tooltip := "Configures a Modbus TCP/IP connection."
  helpUrl := ""

end PollScript.Catalog
