import PollScript.Event
import PollScript.Script.Context
import PollScript.Script.Error
import PollScript.Script.Fragment
import PollScript.Workspace.Block

/-!
# Emitters

An emitter turns a block of one type into code. It is a program that asks the
generator questions: for the code of what is plugged into a slot, for the value
of a field, for an operation on the context. It can do nothing else, so what
holds of every answer holds of every emitter.

An answer may be an error. Most emitters pass an error on at once, but an
emitter may also look at it first, for instance to close a task body.

Results:

* `Program.run_bind`: running a sequence is running its parts in order.
* The programs of emitters form a lawful monad.
-/

namespace PollScript.Script

/-- A question of an emitter to the generator or the context. -/
inductive Query where
  /-- The code of the value in a slot, for a place that asks for the order
      `outer`. -/
  | value (slot : String) (outer : Order) (default : String)
  /-- The code of the statements in a slot, one level deeper. -/
  | body (slot : String)
  | fieldText (slot : String)
  | fieldNumber (slot : String)
  | recorded
  | context (operation : Context.Operation)
  | report (event : Event)

/-- What a question is answered with. -/
abbrev Query.Answer : Query → Type
  | .value .. | .body _ | .fieldText _ => Except GenerateError String
  | .fieldNumber _ => Except GenerateError Float
  | .recorded => Context.Recorded
  | .context operation => operation.Answer
  | .report _ => Unit

/-- A program that asks questions before it has a result. -/
inductive Program (α : Type) where
  | done (result : α)
  | ask (query : Query) (next : query.Answer → Program α)

namespace Program

variable {α β : Type}

/-- Goes on with another program after the result. -/
def bind : Program α → (α → Program β) → Program β
  | .done result, f => f result
  | .ask query next, f => .ask query fun answer => (next answer).bind f

instance : Monad Program where
  pure := .done
  bind := bind

/-- Going on with the result itself changes nothing. -/
theorem bind_done (p : Program α) : p.bind .done = p := by
  induction p with
  | done => rfl
  | ask query next ih => simp [bind, ih]

/-- It does not matter how a sequence of three programs is grouped. -/
theorem bind_assoc {γ : Type} (p : Program α) (f : α → Program β) (g : β → Program γ) :
    (p.bind f).bind g = p.bind fun a => (f a).bind g := by
  induction p with
  | done => rfl
  | ask query next ih => simp [bind, ih]

instance : LawfulMonad Program :=
  LawfulMonad.mk' Program bind_done (fun _ _ => rfl) bind_assoc

/-- Runs a program with a monad that answers its questions. -/
def run {m : Type → Type} [Monad m] (answer : (query : Query) → m query.Answer) :
    Program α → m α
  | .done result => pure result
  | .ask query next => answer query >>= fun a => (next a).run answer

/-- Running a sequence is running its parts in order. -/
theorem run_bind {m : Type → Type} [Monad m] [LawfulMonad m]
    (answer : (query : Query) → m query.Answer) (p : Program α) (f : α → Program β) :
    (p.bind f).run answer = p.run answer >>= fun a => (f a).run answer := by
  induction p with
  | done => simp [bind, run]
  | ask query next ih => simp [bind, run, ih]

end Program

/-- A program that may end with an error. -/
abbrev Emit := ExceptT GenerateError Program

/-- An emitter: the program for a block, given the unit of indentation
    (`BlockEmitter`). -/
abbrev Emitter := Block → (indent : String) → Emit Fragment

namespace Emit

def ask (query : Query) : Emit query.Answer :=
  ExceptT.lift (.ask query .done)

/-- Ends with the error of an answer. -/
def check {α : Type} : Except GenerateError α → Emit α
  | .ok a => pure a
  | .error e => throw e

def value (slot : String) (outer : Order) (default : String) : Emit String :=
  ask (.value slot outer default) >>= check

def body (slot : String) : Emit String :=
  ask (.body slot) >>= check

def fieldText (slot : String) : Emit String :=
  ask (.fieldText slot) >>= check

def fieldNumber (slot : String) : Emit Float :=
  ask (.fieldNumber slot) >>= check

def recorded : Emit Context.Recorded :=
  ask .recorded

/-- Does an operation on the context, whatever it answers. -/
def perform (operation : Context.Operation) : Emit Unit :=
  discard (ask (.context operation))

def report (event : Event) : Emit Unit :=
  ask (.report event)

def requireImport (key line : String) : Emit Unit :=
  perform (.requireImport key line)

/-- Requests that a name is imported from a module. -/
def requireFrom (moduleName name : String) : Emit Unit :=
  requireImport name ("from " ++ moduleName ++ " import " ++ name)

def provideHelper (key code : String) : Emit Unit :=
  perform (.provideHelper key code)

end Emit

end PollScript.Script
