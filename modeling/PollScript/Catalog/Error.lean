/-!
# Catalog errors

Why block types cannot be registered, or no generator be built over them.
-/

namespace PollScript

/-- What is wrong with a catalog (`RegistryError`). -/
inductive RegistryError where
  | duplicateBlockType (type : String)
  | placeholderMismatch (type : String) (placeholders slots : Nat)
  | duplicateSlot (type slot : String)
  | emptyDropdown (type slot : String)
  | invalidBounds (type slot : String)
  | missingEmitter (type : String)
  | missingSpec (type : String)
deriving DecidableEq, Repr

def RegistryError.message : RegistryError → String
  | .duplicateBlockType type => "Block type '" ++ type ++ "' is registered more than once"
  | .placeholderMismatch type placeholders slots =>
    "Block type '" ++ type ++ "' declares " ++ toString placeholders ++
      " placeholders in its message but " ++ toString slots ++ " slots"
  | .duplicateSlot type slot =>
    "Block type '" ++ type ++ "' declares slot '" ++ slot ++ "' more than once"
  | .emptyDropdown type slot =>
    "Dropdown '" ++ slot ++ "' on block type '" ++ type ++ "' has no options"
  | .invalidBounds type slot =>
    "Number field '" ++ slot ++ "' on block type '" ++ type ++ "' has min greater than max"
  | .missingEmitter type => "Block type '" ++ type ++ "' has a spec but no emitter"
  | .missingSpec type => "Emitter for block type '" ++ type ++ "' has no matching spec"

end PollScript
