import PollScript.Dictionary
import PollScript.Decimal.Layout

/-!
# Workspaces

The block graph that a script is generated from. A block has a type, field
values, the blocks in its inputs, and the block that follows it. Top-level
blocks stand in the order in which they were placed.
-/

namespace PollScript

inductive FieldValue where
  | text (s : String)
  | number (x : Float)
deriving DecidableEq

/-- The text of a field value, a number in positional notation. -/
def FieldValue.display : FieldValue → String
  | .text s => s
  | .number x => Decimal.display x

/-- A placed block (`BlockInstance`). In a body input stands the first block of
    a chain, whose other blocks follow through `next`. -/
structure Block where
  id : String
  type : String
  enabled : Bool
  fields : List (String × FieldValue)
  inputs : List (String × Block)
  next : Option Block

namespace Block

def field? (b : Block) (name : String) : Option FieldValue :=
  Dictionary.get? b.fields name

def input? (b : Block) (name : String) : Option Block :=
  Dictionary.get? b.inputs name

/-- The block with another one following it. -/
def followedBy (b : Block) (next : Option Block) : Block :=
  { b with next }

/-- Links blocks in order. All but the last lose what followed them before. -/
def link? : List Block → Option Block
  | [] => none
  | [last] => some last
  | b :: rest => some (b.followedBy (link? rest))

mutual

/-- The chain that a block begins: itself and the blocks that follow. -/
def chain : Block → List Block
  | ⟨id, type, enabled, fields, inputs, next⟩ =>
    ⟨id, type, enabled, fields, inputs, next⟩ :: chainOf next

/-- The chain of a block that may be absent. -/
def chainOf : Option Block → List Block
  | none => []
  | some b => b.chain

end

end Block

/-- A block graph: the top-level blocks in the order in which they stand
    (`WorkspaceDefinition`). -/
structure Workspace where
  blocks : List Block

end PollScript
