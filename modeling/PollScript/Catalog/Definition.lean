import PollScript.Catalog.Spec
import PollScript.Json.Value

/-!
# Block definitions for the editor

The block editor loads block types from JSON. A definition holds the type, the
label, the slots in order and the connectors. Connectors are members with the
value `null` that are there or not, and an output is `null` for any value or
else the tag.
-/

namespace PollScript

open Json (Value)

/-- The check of a socket. A single tag stands without an array. -/
def checkDefinition : List String → Value
  | [tag] => .text tag
  | tags => .array (tags.map .text)

/-- A member that is there only if its value is. -/
def optionalMember (key : String) (value : Option Value) : List (String × Value) :=
  match value with
  | some value => [(key, value)]
  | none => []

/-- The members of a slot's definition. -/
def Slot.definitionMembers (slot : Slot) : List (String × Value) :=
  match slot.kind with
  | .rowBreak => [("type", .text "input_dummy")]
  | .value check =>
    [("type", .text "input_value"), ("name", .text slot.name)] ++
      optionalMember "check" (check.map checkDefinition)
  | .dropdown options =>
    [("type", .text "field_dropdown"), ("name", .text slot.name),
     ("options", .array (options.map fun option =>
        .array [.text option.1, .text option.2]))]
  | .text default =>
    [("type", .text "field_input"), ("name", .text slot.name), ("text", .text default)]
  | .number default least greatest =>
    [("type", .text "field_number"), ("name", .text slot.name), ("value", .number default)] ++
      optionalMember "min" (least.map .number) ++ optionalMember "max" (greatest.map .number)
  | .body => [("type", .text "input_statement"), ("name", .text slot.name)]

/-- The definition of a slot (`to_host_json`). -/
def Slot.definition (slot : Slot) : Value :=
  .ofMembers slot.definitionMembers

/-- The kind of value that a block gives. -/
def Output.definition : Output → Value
  | .any => .null
  | .tag name => .text name

namespace BlockSpec

/-- The members of a block type's definition. -/
def definitionMembers (spec : BlockSpec) : List (String × Value) :=
  [("type", .text spec.type), ("message0", .text spec.message),
   ("args0", .array (spec.slots.map Slot.definition))] ++
    optionalMember "output" (spec.output.map Output.definition) ++
    optionalMember "previousStatement" (if spec.followsOthers then some .null else none) ++
    optionalMember "nextStatement" (if spec.othersFollow then some .null else none) ++
    [("colour", .int spec.colour.toNat), ("tooltip", .text spec.tooltip),
     ("helpUrl", .text spec.helpUrl)]

/-- The definition of a block type (`to_host_json`). -/
def definition (spec : BlockSpec) : Value :=
  .ofMembers spec.definitionMembers

end BlockSpec

end PollScript
