import PollScript.Json.Reader
import PollScript.Workspace.Error

/-!
# Saved workspaces

The document that the block editor saves. Compared with a workspace, its blocks
may lack an id, an input holds a block or a shadow that stands in for one, and
field values are arbitrary JSON.

A document is read from JSON text by shape: each record is an object or an
array of its members, members with a default may be left out, and members
without a meaning here are skipped. At most `nestingLimit` containers may be
open at once in the parts that are read.
-/

namespace PollScript

namespace Saved

/-- What stands in an input, or after a block (`HostConnection`). -/
structure Connection (α : Type) where
  block : Option α
  /-- The block that stands in where none is placed. -/
  shadow : Option α

/-- The occupant of an input: the block, or else the shadow. -/
def Connection.occupant? {α : Type} (c : Connection α) : Option α :=
  c.block.orElse fun _ => c.shadow

/-- A saved block (`HostBlock`). -/
structure Block where
  type : String
  id : Option String
  /-- Whether the block takes part, if that is written. -/
  enabled : Option Bool
  disabledReasons : List String
  fields : List (String × Json.Value)
  inputs : List (String × Connection Block)
  next : Option (Connection Block)

/-- A variable, to which fields refer by its id (`HostVariable`). -/
structure Variable where
  name : String
  id : String
  type : Option String
deriving DecidableEq, Repr

/-- A saved workspace (`HostWorkspace`), with the variables that its fields may
    refer to. -/
structure Document where
  languageVersion : UInt32
  blocks : List Block
  scope : List Variable

/-! ## Reading -/

open Json

/-- How many containers may be open at once. -/
def nestingLimit : Nat := 127

/-- The members of a block, in the order in which an array has them. -/
def blockShape : Shape where
  members := [["type"], ["id"], ["enabled"], ["disabled_reasons", "disabledReasons"],
    ["fields"], ["inputs"], ["next"]]
  least := 7

def connectionShape : Shape where
  members := [["block"], ["shadow"]]
  least := 2

def variableShape : Shape where
  members := [["name"], ["id"], ["type"]]
  least := 2

def blockListShape : Shape where
  members := [["language_version", "languageVersion"], ["blocks"]]
  least := 0

def documentShape : Shape where
  members := [["blocks"], ["variables"]]
  least := 0

mutual

def Block.ofTree? : (budget : Nat) → Tree → Option Block
  | 0, _ => none
  | budget + 1, tree => do
    match ← blockShape.arrange? tree with
    | [type, id, enabled, reasons, fields, inputs, next] =>
      let type ← required? text? type
      let id ← optional? text? id
      let enabled ← optional? bool? enabled
      let disabledReasons ← defaulted? [] (within budget fun _ => list? text?) reasons
      let fields ←
        defaulted? [] (within budget fun budget => dictionary? (Value.ofTree? budget)) fields
      let inputs ← defaulted? [] (Block.inputsOfTree? budget) inputs
      let next ← optional? (Connection.ofTree? budget) next
      return { type, id, enabled, disabledReasons, fields, inputs, next }
    | _ => none

def Block.inputsOfTree? : (budget : Nat) → Tree → Option (List (String × Connection Block))
  | 0, _ => none
  | budget + 1, tree => dictionary? (Connection.ofTree? budget) tree

def Connection.ofTree? : (budget : Nat) → Tree → Option (Connection Block)
  | 0, _ => none
  | budget + 1, tree => do
    match ← connectionShape.arrange? tree with
    | [block, shadow] =>
      let block ← optional? (Block.ofTree? budget) block
      let shadow ← optional? (Block.ofTree? budget) shadow
      return { block, shadow }
    | _ => none

end

def Variable.ofTree? (tree : Tree) : Option Variable := do
  match ← variableShape.arrange? tree with
  | [name, id, type] =>
    let name ← required? text? name
    let id ← required? text? id
    let type ← optional? text? type
    return { name, id, type }
  | _ => none

/-- Reads the version of the format and the top-level blocks. -/
def blockListOfTree? (budget : Nat) (tree : Tree) : Option (UInt32 × List Block) := do
  match ← blockListShape.arrange? tree with
  | [version, blocks] =>
    let version ← defaulted? 0 word32? version
    let blocks ← defaulted? [] (within budget fun budget => list? (Block.ofTree? budget)) blocks
    return (version, blocks)
  | _ => none

def Document.ofTree? (budget : Nat) (tree : Tree) : Option Document := do
  match ← documentShape.arrange? tree with
  | [blocks, scope] =>
    let (languageVersion, blocks) ←
      defaulted? (0, []) (within budget blockListOfTree?) blocks
    let scope ←
      defaulted? []
        (within budget fun budget =>
          list? (within budget fun _ => Variable.ofTree?)) scope
    return { languageVersion, blocks, scope }
  | _ => none

/-- Reads a document from its text (`from_json`). -/
def Document.read (text : String) : Except WorkspaceError Document :=
  match (Tree.read? text).bind (within nestingLimit Document.ofTree?) with
  | some document => .ok document
  | none => .error (.malformed "")

end Saved

end PollScript
