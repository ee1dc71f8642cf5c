import PollScript.Proofs.BlockTree
import PollScript.Proofs.Fields
import PollScript.Proofs.Grammar
import PollScript.Proofs.NumberLiterals

/-!
# What value blocks stand for

Each value block stands for an expression, given by the type of the block, its
fields and what is plugged into it. An input stands for the block in it, if that
block is enabled, and else for the default of the input. A number stands for the literal
of its value, which is read back as the same number. Nothing here knows of
code, of precedence or of parentheses.

Results:

* `Expr.ofNumber?_rounds`: the expression of a number has a value that rounds to
  the number, and no shorter decimal does.
* `meant_eq`: the expression of a block is made of the expressions of the blocks
  in its inputs.
-/

namespace PollScript

open Script

/-! ## Numbers -/

namespace Expr

open Decimal
open Float.Model.UnpackedFloat (Sign)

/-- An expression with a sign in front of it if there is one. -/
def signed : Sign → Expr → Expr
  | .negative, e => .negate e
  | .positive, e => e

/-- A number by its value: the shortest decimal of its magnitude, behind its sign. A
    zero has no sign, and there are no literals for infinities and for what is not
    a number. -/
def ofNumber? (x : Float) : Option Expr :=
  match x.toModel.unpack with
  | .zero _ => some (.number "0")
  | .finite sign significand exponent _ =>
    let digits := shortest .up significand exponent
    some (signed sign (.number (String.ofList (digits.positional []))))
  | .infinity _ | .notANumber => Option.none

/-- The value of a numeral that may have signs in front of it. -/
def value? : Expr → Option ℚ
  | .number literal =>
    (Numeral.ofChars? literal.toList).map fun n => decimal n.coefficient n.scale
  | .negate e => e.value?.map (- ·)
  | _ => Option.none

/-- A value with a sign. -/
def signedValue : Sign → ℚ → ℚ
  | .negative, v => -v
  | .positive, v => v

/-- The expression of a number has a value, which is a shortest decimal of the number with its
    sign. So it rounds to the number. -/
theorem ofNumber?_rounds {x : Float} {sign : Sign} {m : ℕ} {e : ℤ} {positive : 0 < m}
    (h : x.toModel.unpack = .finite sign m e positive) :
    ∃ (d : Digits) (expr : Expr), d.IsShortest m e ∧ ofNumber? x = some expr ∧
      expr.value? = some (signedValue sign d.value) := by
  obtain ⟨d, numeral, hwrites⟩ := exists_writesShortest (canonical_of_unpack h)
  refine ⟨d, _, hwrites.shortest, by rw [ofNumber?, h], ?_⟩
  have hvalue : value? (.number (String.ofList ((shortest .up m e).positional []))) =
      some d.value := by
    rw [value?, String.toList_ofList]
    exact (congrArg _ hwrites.reads).trans (congrArg some hwrites.value)
  cases sign with
  | negative => exact congrArg (Option.map (- ·)) hvalue
  | positive => exact hvalue

end Expr

/-! ## Blocks -/

/-- A block with the expression that it stands for, if it is a value. -/
structure Meant where
  block : Block
  expr? : Option Expr

/-- What the input of a slot stands for: the block in it if that is enabled, and
    else the default. -/
def inputExpr? (inputs : List (String × Meant)) (slot : String) (default : Expr) :
    Option Expr :=
  match Dictionary.get? inputs slot with
  | some child => if child.block.enabled then child.expr? else some default
  | none => some default

namespace Block

/-- The keyword arguments in front of the others for a device. -/
def deviceExprs? (inputs : List (String × Meant)) : Option (List (String × Expr)) := do
  let timeout ← inputExpr? inputs "TIMEOUT" (.number "3.0")
  let slaveId ← inputExpr? inputs "SLAVE_ID" (.number "1")
  let startAddress ← inputExpr? inputs "START_ADDRESS" (.number "0")
  let count ← inputExpr? inputs "COUNT" (.number "2")
  return [("timeout", timeout), ("slave_id", slaveId), ("start_address", startAddress),
    ("count", count)]

/-- A connection over a serial line: a call of the class of its framing. -/
def serialExpr? (b : Block) (inputs : List (String × Meant)) (className : String) :
    Option Expr := do
  let port ← inputExpr? inputs "PORT" (.text "COM4")
  let bytesize ← inputExpr? inputs "BYTESIZE" (.number "8")
  let stopbits ← inputExpr? inputs "STOPBITS" (.number "1")
  let device ← deviceExprs? inputs
  return .call (.name className) []
    ([("port", port),
      ("baudrate", .number (b.textOr "BAUDRATE" "9600")),
      ("bytesize", bytesize),
      ("parity", .text (b.textOr "PARITY" "N")),
      ("stopbits", stopbits)] ++
      device ++ [("function_code", .number (b.textOr "FUNCTION_CODE" "1"))])

/-- A connection over a network. -/
def networkExpr? (b : Block) (inputs : List (String × Meant)) : Option Expr := do
  let host ← inputExpr? inputs "HOST" (.text "127.0.0.1")
  let port ← inputExpr? inputs "PORT" (.number "502")
  let device ← deviceExprs? inputs
  return .call (.name "TCPConfig") []
    ([("host", host), ("port", port)] ++
      device ++ [("function_code", .number (b.textOr "FUNCTION_CODE" "1"))])

/-- A poll, which is awaited. -/
def pollExpr? (inputs : List (String × Meant)) : Option Expr := do
  let config ← inputExpr? inputs "CONFIG" .none
  return .await (.call (.name "pull_data_async") [config] [])

/-- A part of a poll's result, by its name. -/
def partExpr? (b : Block) (inputs : List (String × Meant)) : Option Expr := do
  let data ← inputExpr? inputs "DATA" .emptyDict
  return .call (.member data "get") [.text (b.textOr "FIELD" "raw")] []

/-- A register of a poll's result, by its index in the list of registers. -/
def registerExpr? (inputs : List (String × Meant)) : Option Expr := do
  let index ← inputExpr? inputs "INDEX" (.number "0")
  let data ← inputExpr? inputs "DATA" .emptyDict
  return .subscript (.call (.member data "get") [.text "registers", .emptyList] []) index

/-- The level of a reading under three thresholds. -/
def alarmExpr? (inputs : List (String × Meant)) : Option Expr := do
  let reading ← inputExpr? inputs "VAL" (.number "0")
  let lv1 ← inputExpr? inputs "LV1" (.number "0")
  let lv2 ← inputExpr? inputs "LV2" (.number "0")
  let lv3 ← inputExpr? inputs "LV3" (.number "0")
  return .call (.name "evaluate_alarm") [reading, lv1, lv2, lv3] []

/-- The number in the field of a number block. -/
def numberExpr? (b : Block) : Option Expr :=
  (Generator.readNumber b "NUM" 0).toOption.bind Expr.ofNumber?

/-- The expression that a block stands for, given those of the blocks in its
    inputs. -/
def exprOf? (b : Block) (inputs : List (String × Meant)) : Option Expr :=
  match b.type with
  | "RTU_config" => b.serialExpr? inputs "RTUConfig"
  | "ASCII_config" => b.serialExpr? inputs "ASCIIConfig"
  | "TCP_config" => b.networkExpr? inputs
  | "modbus_pull_data" => pollExpr? inputs
  | "modbus_get_field" => b.partExpr? inputs
  | "modbus_get_register" => registerExpr? inputs
  | "modbus_get_limiter" =>
    some (.call (.name "get_limiter") [.text (b.textOr "LIMITER_NAME" "DP_Limit_LV1")] [])
  | "modbus_alarm_evaluator" => alarmExpr? inputs
  | "text" => some (.text (b.textOr "TEXT" ""))
  | "math_number" => b.numberExpr?
  | "variables_get" => some (.name (identifier (b.textOr "VAR" "item")))
  | _ => none

/-- A block with the expression that it stands for. -/
def meant : Block → Meant :=
  fold fun b inputs _ => ⟨b, b.exprOf? inputs⟩

/-- The expression that a block stands for. -/
def expr? (b : Block) : Option Expr :=
  b.meant.expr?

/-- The expression of a block is made of the expressions of the blocks in its
    inputs. -/
theorem meant_eq (b : Block) :
    b.meant = ⟨b, b.exprOf? (Dictionary.mapValues meant b.inputs)⟩ :=
  fold_eq _ b

@[simp] theorem meant_block (b : Block) : b.meant.block = b := by
  rw [meant_eq]

theorem expr?_eq (b : Block) : b.expr? = b.exprOf? (Dictionary.mapValues meant b.inputs) := by
  rw [expr?, meant_eq]

/-- An input stands for the connected block if that is enabled, and else for the
    default. -/
theorem inputExpr?_eq (b : Block) (slot : String) (default : Expr) :
    inputExpr? (Dictionary.mapValues meant b.inputs) slot default =
      match b.input? slot with
      | some child => if child.enabled then child.expr? else some default
      | none => some default := by
  have hget : Dictionary.get? (Dictionary.mapValues meant b.inputs) slot =
      (b.input? slot).map meant := Dictionary.get?_mapValues _ _ _
  rw [inputExpr?, hget]
  cases b.input? slot with
  | none => rfl
  | some child =>
    show (if child.meant.block.enabled then _ else _) = _
    rw [meant_block]
    rfl

end Block

end PollScript
