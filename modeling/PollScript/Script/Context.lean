import PollScript.Dictionary
import PollScript.Text.Lines

/-!
# The context of a pass

While a script is generated, the context collects what the finished file needs
besides the generated code: import lines, helper definitions and the names of
the tasks to launch. It also tells whether the code at hand ends up inside a
task. Imports and helpers are requested by key, and only the first request of a
key counts.

Finalising puts the collected parts around the code and empties the context.

Results:

* `finalize_eq`: finalising puts the sections together and resets the context.
* `recorded_reset`, `recorded_finalize`: both leave nothing behind.
* `indent_apply`: no operation changes the unit of indentation.
-/

namespace PollScript.Script

/-- The parts of a script that are collected during a pass
    (`GenerationContext`). Import lines and helper definitions stand with their
    keys, in the order of their first requests. -/
structure Context where
  indent : String
  imports : List (String × String)
  helpers : List (String × String)
  tasks : List String
  taskDepth : Nat
deriving DecidableEq, Repr

namespace Context

def defaultIndent : String := "    "

def withIndent (indent : String) : Context where
  indent
  imports := []
  helpers := []
  tasks := []
  taskDepth := 0

/-- What a context shows of itself (`imports`, `helpers`, `tasks` and
    `in_task`). -/
structure Recorded where
  imports : List String
  helpers : List String
  tasks : List String
  inTask : Bool
deriving DecidableEq, Repr

def recorded (c : Context) : Recorded where
  imports := c.imports.map (·.2)
  helpers := c.helpers.map (·.2)
  tasks := c.tasks
  inTask := 0 < c.taskDepth

def hasTask (c : Context) (name : String) : Bool :=
  c.tasks.contains name

/-! ## Requests -/

/-- Adds an entry unless its key is there. Answers whether it was added. -/
def request (key text : String) (entries : List (String × String)) :
    Bool × List (String × String) :=
  if Dictionary.has entries key then (false, entries) else (true, entries ++ [(key, text)])

/-- Requests an import line (`require_import`). Answers whether the key is new.
    -/
def requireImport (key line : String) (c : Context) : Bool × Context :=
  let (isNew, imports) := request key line c.imports
  (isNew, { c with imports })

/-- Requests a helper definition (`provide_helper`). Answers whether the key is
    new. -/
def provideHelper (key code : String) (c : Context) : Bool × Context :=
  let (isNew, helpers) := request key code c.helpers
  (isNew, { c with helpers })

def registerTask (name : String) (c : Context) : Context :=
  { c with tasks := c.tasks ++ [name] }

def enterTask (c : Context) : Context :=
  { c with taskDepth := c.taskDepth + 1 }

/-- Closes a task body (`leave_task`). Nothing happens if none is open. -/
def leaveTask (c : Context) : Context :=
  { c with taskDepth := c.taskDepth - 1 }

def reset (c : Context) : Context :=
  { c with imports := [], helpers := [], tasks := [], taskDepth := 0 }

/-! ## The finished script -/

/-- The part of a script that launches the tasks together. -/
def runner (indent : String) (tasks : List String) : String :=
  "async def main():\n" ++
  indent ++ "await asyncio.gather(" ++ ", ".intercalate (tasks.map (· ++ "()")) ++ ")\n" ++
  "\n\n" ++
  "if __name__ == \"__main__\":\n" ++
  indent ++ "try:\n" ++
  indent ++ indent ++ "asyncio.run(main())\n" ++
  indent ++ "except KeyboardInterrupt:\n" ++
  indent ++ indent ++ "pass\n"

/-- The sections of a script: the import lines as one, the helper definitions,
    the code, and the runner if there are tasks. -/
def arrange (indent : String) (imports helpers tasks : List String) (code : String) :
    List String :=
  (if imports.isEmpty then [] else ["\n".intercalate imports]) ++ helpers ++ [code] ++
    if tasks.isEmpty then [] else [runner indent tasks]

/-- The import lines of the finished script. Launching tasks needs one of its
    own. -/
def headerLines (c : Context) : List String :=
  let imports :=
    if c.tasks.isEmpty then c.imports else (request "asyncio" "import asyncio" c.imports).2
  imports.map (·.2)

/-- The sections of the finished script. -/
def sections (c : Context) (code : String) : List String :=
  arrange c.indent c.headerLines (c.helpers.map (·.2)) c.tasks code

/-- Sections with two empty lines between them. Blank ones are left out. -/
def joinSections (sections : List String) : String :=
  let texts := (sections.map fun s => Text.trimLineFeeds s.toList).filter (!Text.allBlank ·)
  String.ofList (['\n', '\n', '\n'].intercalate texts)

/-- Takes the tasks out of the context, and closes all bodies. -/
def takeTasks (c : Context) : List String × Context :=
  (c.tasks, { c with tasks := [], taskDepth := 0 })

/-- Requests the import that launching tasks needs. -/
def requireRunner (tasks : List String) (c : Context) : Context :=
  if tasks.isEmpty then c else (c.requireImport "asyncio" "import asyncio").2

/-- Takes the import lines out of the context, so that every key is new again. -/
def takeImports (c : Context) : List String × Context :=
  (c.imports.map (·.2), { c with imports := [] })

def takeHelpers (c : Context) : List String × Context :=
  (c.helpers.map (·.2), { c with helpers := [] })

/-- Puts the collected parts around the code, and empties the context part by
    part (`finalize`). The import that launching needs is requested while the
    others are still there. -/
def finalize (code : String) (c : Context) : String × Context :=
  let (tasks, c) := c.takeTasks
  let c := c.requireRunner tasks
  let (imports, c) := c.takeImports
  let (helpers, c) := c.takeHelpers
  (Text.tidy (joinSections (arrange c.indent imports helpers tasks code)), c)

/-! ## Operations as data -/

/-- Something that is done to a context. -/
inductive Operation where
  | requireImport (key line : String)
  | provideHelper (key code : String)
  | registerTask (name : String)
  | enterTask
  | leaveTask
  | reset
  | finalize (code : String)
deriving DecidableEq, Repr

/-- What an operation answers. -/
def Operation.Answer : Operation → Type
  | .requireImport .. | .provideHelper .. => Bool
  | .finalize _ => String
  | _ => Unit

def apply : (operation : Operation) → Context → operation.Answer × Context
  | .requireImport key line, c => c.requireImport key line
  | .provideHelper key code, c => c.provideHelper key code
  | .registerTask name, c => ((), c.registerTask name)
  | .enterTask, c => ((), c.enterTask)
  | .leaveTask, c => ((), c.leaveTask)
  | .reset, c => ((), c.reset)
  | .finalize code, c => c.finalize code

/-! ## What the operations do to the record -/

/-- A reset leaves nothing behind. -/
theorem recorded_reset (c : Context) : c.reset.recorded = ⟨[], [], [], false⟩ :=
  rfl

/-- Finalising puts the sections together and resets the context. -/
theorem finalize_eq (code : String) (c : Context) :
    c.finalize code = (Text.tidy (joinSections (c.sections code)), c.reset) := by
  obtain ⟨indent, imports, helpers, tasks, depth⟩ := c
  cases tasks with
  | nil => rfl
  | cons task rest => rfl

theorem finalize_fst (code : String) (c : Context) :
    (c.finalize code).1 = Text.tidy (joinSections (c.sections code)) := by
  rw [finalize_eq]

theorem finalize_snd (code : String) (c : Context) : (c.finalize code).2 = c.reset := by
  rw [finalize_eq]

/-- Nor does finalising leave anything behind. -/
theorem recorded_finalize (code : String) (c : Context) :
    (c.finalize code).2.recorded = ⟨[], [], [], false⟩ := by
  rw [finalize_snd, recorded_reset]

/-- No operation changes the unit of indentation. -/
theorem indent_apply (operation : Operation) (c : Context) :
    (c.apply operation).2.indent = c.indent := by
  cases operation with
  | finalize code =>
    show (c.finalize code).2.indent = c.indent
    rw [finalize_snd, reset]
  | _ => rfl

end Context

end PollScript.Script
