import PollScript.Script.Order

/-!
# Code fragments

What a block turns into: an expression for the place that it is plugged into,
or statements for the body that it stands in.
-/

namespace PollScript.Script

/-- The code of one block (`CodeFragment`). -/
inductive Fragment where
  | expression (code : String) (order : Order)
  /-- Statements, each of whose lines ends in a line feed. -/
  | statement (code : String)
deriving DecidableEq, Repr

def Fragment.code : Fragment → String
  | .expression code _ => code
  | .statement code => code

end PollScript.Script
