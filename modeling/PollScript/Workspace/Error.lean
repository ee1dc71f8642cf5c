/-!
# Workspace errors

What can be wrong with a saved workspace: its text is not one, or a field holds
a value that no field can have.
-/

namespace PollScript

/-- Why a saved workspace cannot be loaded (`WorkspaceConversionError`). -/
inductive WorkspaceError where
  | malformed (detail : String)
  | invalid (detail : String)
deriving DecidableEq, Repr

def WorkspaceError.message : WorkspaceError → String
  | .malformed detail => "Failed to parse workspace JSON: " ++ detail
  | .invalid detail => "Invalid workspace data: " ++ detail

end PollScript
