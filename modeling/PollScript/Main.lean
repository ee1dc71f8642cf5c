import PollScript.Command.Run

/-!
# The program

Runs a command line on the file system of the machine.
-/

namespace PollScript

/-- An error of the machine's file system. A folder in the place of a file has
    the code 21, which some calls negate. -/
def FileError.ofSystem : IO.Error → FileError
  | .noFileOrDirectory .. => .notFound
  | .inappropriateType _ code _ =>
    if code = 21 ∨ code = 0 - 21 then .isDirectory else .notDirectory
  | e => .other (toString e)

instance : FileSystem IO where
  read path := do
    try return .ok (← IO.FS.readFile path)
    catch e => return .error (.ofSystem e)
  write path content := do
    try
      IO.FS.writeFile path content
      return .ok ()
    catch e => return .error (.ofSystem e)

end PollScript

/-- Runs the command line, prints what it gives, and ends with its exit code. -/
def main (arguments : List String) : IO UInt32 := do
  let report ← (PollScript.Command.runLine arguments : IO PollScript.Command.Report)
  IO.print report.output
  if let some error := report.error then
    IO.eprintln ("\n" ++ error)
  return report.exitCode
