import PollScript.Catalog.Error
import PollScript.Catalog.Placeholder
import PollScript.Catalog.Spec

/-!
# Well-formed block types

A block type is well-formed when its label has exactly one placeholder number
for each slot, no two addressable slots share a name, every dropdown offers
something, and no number slot has its bounds the wrong way round. Checking
reports the first fault.
-/

namespace PollScript

namespace BlockSpec

/-- The numbers of the placeholders in the label, in ascending order, each once
    (`placeholders`). -/
def placeholders (spec : BlockSpec) : List Nat :=
  Placeholder.distinct (Placeholder.numbers spec.message.toList)

/-- The numbers that the placeholders must have: one for each slot, from one
    on. -/
def expectedPlaceholders (spec : BlockSpec) : List Nat :=
  List.range' 1 spec.slots.length

end BlockSpec

/-- The fault of a slot on its own, if it has one. -/
def Slot.fault? (type : String) (slot : Slot) : Option RegistryError :=
  match slot.kind with
  | .dropdown [] => some (.emptyDropdown type slot.name)
  | .number _ (some least) (some greatest) =>
    if greatest < least then some (.invalidBounds type slot.name) else none
  | _ => none

namespace BlockSpec

/-- The first fault of a list of slots. A repeated name counts before the
    slot's own fault. -/
def slotFault? (type : String) (seen : List String) : List Slot → Option RegistryError
  | [] => none
  | slot :: rest =>
    if seen.contains slot.name then some (.duplicateSlot type slot.name)
    else match slot.fault? type with
      | some fault => some fault
      | none => slotFault? type (slot.name :: seen) rest

/-- Checks that the block type is well-formed (`validate`). The label is looked
    at before the slots. -/
def validate (spec : BlockSpec) : Except RegistryError Unit :=
  if spec.placeholders = spec.expectedPlaceholders then
    match slotFault? spec.type [] spec.addressableSlots with
    | some fault => .error fault
    | none => .ok ()
  else .error (.placeholderMismatch spec.type spec.placeholders.length spec.slots.length)

end BlockSpec

end PollScript
