import PollScript.Json.Printer
import PollScript.Workspace.Block
import PollScript.Workspace.Document

/-!
# From a saved document to a workspace

A document becomes a workspace block by block: the occupant of each input is
kept, shadows hidden by a block are dropped, and field values become texts and
numbers. Blocks without an id are numbered in the order in which they are met,
a block before its inputs, inputs in ascending order of their names, and inputs
before what follows the block.
-/

namespace PollScript

namespace Saved

/-- A field with a value that no field can have. -/
structure Unreadable where
  block : String
  field : String
  value : Json.Value

/-- What is wrong with the field: an object that names no variable, or a value
    of a kind that fields do not have. -/
def Unreadable.describe (u : Unreadable) : String :=
  let place := "field '" ++ u.field ++ "' on block '" ++ u.block ++ "' "
  match u.value with
  | .object _ => place ++ "references an unknown variable"
  | value => place ++ "has unsupported value " ++ value.compact

/-- The name of the variable with an id. The last variable of an id counts. -/
def variableName? (scope : List Variable) (id : String) : Option String :=
  (scope.reverse.find? (·.id = id)).map (·.name)

/-- The text of an object: the name of the variable that its `id` refers to, or
    else its own `name`. -/
def reference? (scope : List Variable) (value : Json.Value) : Option String :=
  (((value.member? "id").bind Json.Value.asText?).bind (variableName? scope)).orElse
    fun _ => (value.member? "name").bind Json.Value.asText?

/-- The field value that a stored value denotes. -/
def fieldValue? (scope : List Variable) (value : Json.Value) : Option FieldValue :=
  match value with
  | .text s => some (.text s)
  | .int n => some (.number (Float.ofInt n))
  | .float x => some (.number x)
  | .bool b => some (.text (if b then "TRUE" else "FALSE"))
  | .object _ => (reference? scope value).map .text
  | _ => none

/-- Converts one field (`convert_field`). -/
def convertField (scope : List Variable) (block : String)
    (entry : String × Json.Value) : Except Unreadable (String × FieldValue) :=
  match fieldValue? scope entry.2 with
  | some value => .ok (entry.1, value)
  | none => .error ⟨block, entry.1, entry.2⟩

/-- A conversion in progress. The state is the number of blocks without an id
    so far. -/
abbrev Conversion := StateT Nat (Except Unreadable)

/-- The id of a block. A block without one gets its type and the next
    number. -/
def chooseId (type : String) : Option String → Conversion String
  | some id => pure id
  | none => do
    let count ← get
    set (count + 1)
    return type ++ "#" ++ toString (count + 1)

/-- Runs conversions that are keyed by name, in the order in which they
    stand. -/
def convertAll : List (String × Conversion PollScript.Block) →
    Conversion (List (String × PollScript.Block))
  | [] => pure []
  | (name, conversion) :: rest => do
    let block ← conversion
    let others ← convertAll rest
    return (name, block) :: others

/-- Runs the conversion of what follows a block, if something does. -/
def convertNext : Option (Conversion PollScript.Block) → Conversion (Option PollScript.Block)
  | none => pure none
  | some conversion => some <$> conversion

mutual

/-- Converts a block and all that is connected to it (`convert`). -/
def Block.convert (scope : List Variable) : Block → Conversion PollScript.Block
  | ⟨type, id, enabled, reasons, fields, inputs, next⟩ => do
    let id ← chooseId type id
    let fields ← ((Dictionary.sorted fields).mapM (convertField scope id) :
      Except Unreadable (List (String × FieldValue)))
    let inputs ← convertAll (Dictionary.sorted (Block.convertInputs scope inputs))
    let next ← convertNext (Block.convertFollower scope next)
    return {
      id, type
      enabled := enabled.getD true && reasons.isEmpty
      fields, inputs, next }

/-- The conversions of the occupants of inputs. An input without an occupant
    is left out. -/
def Block.convertInputs (scope : List Variable) :
    List (String × Connection Block) → List (String × Conversion PollScript.Block)
  | [] => []
  | (name, ⟨some block, _⟩) :: rest =>
    (name, block.convert scope) :: Block.convertInputs scope rest
  | (name, ⟨none, some shadow⟩) :: rest =>
    (name, shadow.convert scope) :: Block.convertInputs scope rest
  | (_, ⟨none, none⟩) :: rest => Block.convertInputs scope rest

/-- The conversion of what follows a block. A shadow cannot. -/
def Block.convertFollower (scope : List Variable) :
    Option (Connection Block) → Option (Conversion PollScript.Block)
  | some ⟨some block, _⟩ => some (block.convert scope)
  | _ => none

end

def Document.convert (document : Document) : Conversion (List PollScript.Block) :=
  document.blocks.mapM (Block.convert document.scope)

/-- The workspace of a document (`into_workspace`). -/
def Document.toWorkspace (document : Document) : Except WorkspaceError Workspace :=
  match document.convert.run 0 with
  | .ok (blocks, _) => .ok ⟨blocks⟩
  | .error unreadable => .error (.invalid unreadable.describe)

end Saved

/-- Loads a workspace from the text of a saved document. -/
def Workspace.read (text : String) : Except WorkspaceError Workspace := do
  (← Saved.Document.read text).toWorkspace

end PollScript
