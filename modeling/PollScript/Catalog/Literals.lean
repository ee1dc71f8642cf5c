import PollScript.Catalog.Actions

/-!
# Literal and variable blocks

The block types of the editor's own toolbox: texts, numbers and variables. The
literals are what users plug into the sockets of the other blocks.
-/

namespace PollScript.Catalog

def variableColour : UInt16 := 330

def text : BlockSpec :=
  valueBlock "text" "%1" [⟨"TEXT", .text ""⟩] (.tag "String") 160
    "A letter, word, or line of text."

def mathNumber : BlockSpec :=
  valueBlock "math_number" "%1" [⟨"NUM", .number 0 none none⟩] (.tag "Number") 230
    "A number."

def variablesSet : BlockSpec :=
  chainBlock "variables_set" "set %1 to %2" [⟨"VAR", .text "item"⟩, anySocket "VALUE"]
    variableColour "Sets this variable to be equal to the input."

def variablesGet : BlockSpec :=
  valueBlock "variables_get" "%1" [⟨"VAR", .text "item"⟩] .any variableColour
    "Returns the value of this variable."

end PollScript.Catalog
