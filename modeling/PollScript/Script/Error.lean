/-!
# Generation errors

Why no script can be generated from a workspace. Each error names the block at
fault by its id.
-/

namespace PollScript.Script

/-- Why no code can be generated (`GenerateError`). -/
inductive GenerateError where
  | unknownBlockType (block type : String)
  | notAValueBlock (block type : String)
  | notAStatementBlock (block type : String)
  /-- A block that cannot follow another one follows one. -/
  | noPreviousConnection (block type : String)
  /-- An input does not take values of the kind that is plugged into it. -/
  | incompatibleConnection (block slot found accepted : String)
  /-- The block's type has no such slot, or none of the kind that is asked for. -/
  | unknownSlot (block type slot : String)
  | invalidFieldValue (block slot detail : String)
deriving DecidableEq, Repr

def GenerateError.message : GenerateError → String
  | .unknownBlockType block type =>
    "Block '" ++ block ++ "' has an unregistered block type: '" ++ type ++ "'"
  | .notAValueBlock block type =>
    "Block '" ++ block ++ "' (" ++ type ++
      ") is a statement block and cannot be used as a value"
  | .notAStatementBlock block type =>
    "Block '" ++ block ++ "' (" ++ type ++
      ") is a value block and cannot be used as a statement"
  | .noPreviousConnection block type =>
    "Block '" ++ block ++ "' (" ++ type ++
      ") has no previous connection and cannot be placed inside a statement chain"
  | .incompatibleConnection block slot found accepted =>
    "Input '" ++ slot ++ "' on block '" ++ block ++ "' does not accept output '" ++ found ++
      "' (accepts: " ++ accepted ++ ")"
  | .unknownSlot block type slot =>
    "Block '" ++ block ++ "' (" ++ type ++ ") has no slot named '" ++ slot ++ "'"
  | .invalidFieldValue block slot detail =>
    "Field '" ++ slot ++ "' on block '" ++ block ++ "' has an invalid value: " ++ detail

end PollScript.Script
