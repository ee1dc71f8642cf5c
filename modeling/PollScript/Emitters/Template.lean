import PollScript.Script.Emitter
import PollScript.Script.Literal
import PollScript.Text.Lines

/-!
# Templates

An emitter that is given as data: steps that each yield a piece of code or do
something to the context. The pieces are put together in order, and the result
is an expression if the template names an order for it, or else statements.
The first error ends the template.
-/

namespace PollScript.Emitters

open Script

/-- A step of a template. -/
inductive Step where
  | code (text : String)
  | value (slot : String) (outer : Order) (default : String)
  | body (slot : String)
  | fieldText (slot : String)
  | fieldNumber (slot : String)
  | indented (steps : List Step)
  /-- Yields `in` inside a task and `out` elsewhere. -/
  | place
  /-- Does an operation on the context and yields nothing. -/
  | perform (operation : Context.Operation)

mutual

/-- What a step yields. -/
def Step.emit (indent : String) : Step → Emit String
  | .code text => pure text
  | .value slot outer default => Emit.value slot outer default
  | .body slot => Emit.body slot
  | .fieldText slot => Emit.fieldText slot
  | .fieldNumber slot => number <$> Emit.fieldNumber slot
  | .indented steps => Text.indentLines indent <$> Step.emitAll indent steps
  | .place => (fun recorded => if recorded.inTask then "in" else "out") <$> Emit.recorded
  | .perform operation => (fun _ => "") <$> Emit.perform operation

/-- What steps yield together. -/
def Step.emitAll (indent : String) : List Step → Emit String
  | [] => pure ""
  | step :: rest => do
    let code ← step.emit indent
    let more ← Step.emitAll indent rest
    return code ++ more

end

/-- An emitter as data. -/
structure Template where
  steps : List Step
  order : Option Order

/-- The emitter that a template describes. -/
def Template.emitter (template : Template) : Emitter := fun _ indent => do
  let code ← Step.emitAll indent template.steps
  match template.order with
  | some order => return .expression code order
  | none => return .statement code

end PollScript.Emitters
