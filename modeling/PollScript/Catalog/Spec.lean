/-!
# Block types

The shape of a block type: the label with its placeholders, the slots that the
placeholders stand for, the output, and the connectors for chains. A slot is a
socket for other blocks, a field with a value of its own, or a break between
two rows, which holds nothing and has no name to address it by.
-/

namespace PollScript

/-- What a slot is for. -/
inductive SlotKind where
  | rowBreak
  /-- A socket for a value. Without a check it takes values of every kind. -/
  | value (check : Option (List String))
  | dropdown (options : List (String × String))
  | text (default : String)
  | number (default : Float) (least greatest : Option Float)
  | body
deriving DecidableEq

structure Slot where
  name : String
  kind : SlotKind
deriving DecidableEq

/-- Whether blocks can refer to the slot (`is_addressable`). -/
def Slot.addressable (slot : Slot) : Bool :=
  slot.kind != .rowBreak

/-- The kind of value that a block gives (`OutputCheck`). -/
inductive Output where
  | any
  | tag (name : String)
deriving DecidableEq, Repr

namespace Output

/-- Whether a value fits a socket with the given check (`is_accepted_by`). -/
def fits : Output → (check : Option (List String)) → Bool
  | .any, _ => true
  | .tag _, none => true
  | .tag name, some accepted => accepted.contains name

/-- The name of the kind (`as_str`). -/
def label : Output → String
  | .any => "any"
  | .tag name => name

end Output

/-- A block type. -/
structure BlockSpec where
  type : String
  /-- The label, in which the placeholders `%1`, `%2` and so on stand for the
      slots. -/
  message : String
  slots : List Slot
  /-- The kind of value that the block gives. Statements give none. -/
  output : Option Output
  followsOthers : Bool
  othersFollow : Bool
  colour : UInt16
  tooltip : String
  helpUrl : String
deriving DecidableEq

namespace BlockSpec

def isValueBlock (spec : BlockSpec) : Bool :=
  spec.output.isSome

/-- The slots that blocks can refer to. -/
def addressableSlots (spec : BlockSpec) : List Slot :=
  spec.slots.filter Slot.addressable

/-- The place of the slot that a name refers to, among all slots. -/
def slotIndex? (spec : BlockSpec) (name : String) : Option Nat :=
  spec.slots.findIdx? fun slot => slot.addressable && slot.name == name

/-- The slot that a name refers to: the first addressable one of that name
    (`find_slot`). -/
def slot? (spec : BlockSpec) (name : String) : Option Slot :=
  spec.slots.find? fun slot => slot.addressable && slot.name == name

end BlockSpec

end PollScript
