import PollScript.Builder
import PollScript.Command
import PollScript.Command.Files
import PollScript.Json.Printer
import PollScript.Workspace.Conversion

/-!
# Running commands

What a command does, on any file system: it reads the workspace, generates the
script or the block definitions, and writes the result to a file or to the
standard output. The first thing that fails ends it.

Results:

* `runLine_frame`: what a command line may change in a folder.
-/

namespace PollScript

namespace Command

/-- How a command ended. -/
structure Report where
  exitCode : UInt32
  output : String
  error : Option String
deriving DecidableEq, Repr

def Report.usage : Report := ⟨2, "", none⟩

/-- A width of the indentation that no text can hold. -/
def Report.tooWide : Report := ⟨101, "", none⟩

def Report.success (output : String) : Report := ⟨0, output, none⟩

def Report.failure (reason : String) : Report := ⟨1, "", some ("Error: " ++ reason)⟩

/-- The widest indentation that a text can hold. -/
def widestIndent : Nat := UInt64.size / 2 - 1

/-- A saved workspace, or what is wrong. -/
def load (document : String) : Except String Workspace :=
  (Workspace.read document).mapError fun e => "Failed to load workspace: " ++ e.message

/-- The script of a workspace, or what is wrong. -/
def script (workspace : Workspace) (indent : Nat) : Except String String := do
  let generator ← (Builder.default.indentWidth indent).build.mapError fun e =>
    "Block catalog is invalid: " ++ e.message
  (generator.generate workspace).mapError fun e => "Code generation failed: " ++ e.message

/-- The block definitions of the default catalog, or what is wrong. -/
def definitions : Except String String := do
  let generator ← Builder.default.build.mapError fun e =>
    "Block catalog is invalid: " ++ e.message
  return generator.registry.definitions.pretty ++ "\n"

variable {m : Type → Type} [Monad m] [FileSystem m]

/-- Writes a result where the command line says. -/
def deliver (output : Option String) (result : Except String String) : m Report := do
  match result with
  | .error reason => return .failure reason
  | .ok content =>
    match output with
    | none => return .success content
    | some path =>
      match ← FileSystem.write path content with
      | .ok () => return .success ""
      | .error e => return .failure ("Failed to write '" ++ path ++ "': " ++ e.message)

def run : Command → m Report
  | .generate path output indent => do
    match ← FileSystem.read path with
    | .error e =>
      return .failure ("Failed to read workspace file '" ++ path ++ "': " ++ e.message)
    | .ok document =>
      match load document with
      | .error reason => return .failure reason
      | .ok workspace =>
        if widestIndent < indent then return .tooWide
        else deliver output (script workspace indent)
  | .catalog output => deliver output definitions

/-- Runs a command line (`main`). -/
def runLine (arguments : List String) : m Report :=
  match parse? arguments with
  | some command => command.run
  | none => return .usage

/-! ## What a run leaves alone -/

/-- The file that a command writes to, if it names one. -/
def output : Command → Option String
  | .generate _ output _ => output
  | .catalog output => output

/-- A run leaves a folder as it is unless it succeeds, and then it leaves all files but the one
    that the output goes to. -/
def Leaves (output : Option String) (x : StateM Folder Report) : Prop :=
  ∀ f, (x.run f).2 = f ∨
    (x.run f).1.exitCode = 0 ∧ ∃ path, output = some path ∧
      ∀ file, ¬ f.Reaches path file →
        Dictionary.get? (x.run f).2.files file = Dictionary.get? f.files file

theorem leaves_pure (output : Option String) (report : Report) : Leaves output (pure report) :=
  fun _ => .inl rfl

/-- Reading leaves a folder as it is. -/
theorem leaves_read {output : Option String} (path : String)
    {next : Except FileError String → StateM Folder Report}
    (h : ∀ content, Leaves output (next content)) :
    Leaves output (FileSystem.read path >>= next) :=
  fun f => h (f.read path) f

theorem leaves_deliver (output : Option String) (result : Except String String) :
    Leaves output (deliver output result) := by
  intro f
  cases result with
  | error reason => exact .inl rfl
  | ok content =>
    cases output with
    | none => exact .inl rfl
    | some path =>
      simp only [deliver, StateT.run_bind, Folder.run_write]
      cases hwrite : f.write path content with
      | error e => exact .inl rfl
      | ok g =>
        exact .inr ⟨rfl, path, rfl, fun file elsewhere => Folder.write_frame hwrite elsewhere⟩

theorem leaves_run (command : Command) : Leaves command.output command.run := by
  cases command with
  | catalog output => exact leaves_deliver output definitions
  | generate path output indent =>
    refine leaves_read path fun content => ?_
    cases content with
    | error e => exact leaves_pure _ _
    | ok document =>
      show Leaves output (match load document with | .error reason => _ | .ok workspace => _)
      cases load document with
      | error reason => exact leaves_pure _ _
      | ok workspace =>
        dsimp only
        split
        · exact leaves_pure _ _
        · exact leaves_deliver output _

/-- A command line leaves all files as they are unless it succeeds, and then all but the one that
    its output goes to. -/
theorem runLine_frame (arguments : List String) :
    Leaves ((parse? arguments).bind output) (runLine arguments) := by
  unfold runLine
  cases parse? arguments with
  | some command => exact leaves_run command
  | none => exact leaves_pure _ _

end Command

end PollScript
