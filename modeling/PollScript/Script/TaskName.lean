import PollScript.Script.Literal

/-!
# Names of task functions

A task function is named after the id of its task. If the name is taken, a
number from two on is put behind the id, the least one that gives a free name.
Among one more numbers than there are names taken, one always does.

Results:

* `choose_of_free`: a name that is not taken is kept.
-/

namespace PollScript.Script.TaskName

/-- The name of a task function. -/
def plain (id : String) : String :=
  "task_" ++ id ++ "_loop"

/-- The name of a task function with a number behind the id. -/
def numbered (id : String) (n : Nat) : String :=
  plain (id ++ "_" ++ toString n)

/-- The least number from two on that gives a name which is not taken. -/
def leastFree? (taken : List String) (id : String) : Option Nat :=
  (List.range' 2 (taken.length + 1)).find? fun n => !taken.contains (numbered id n)

/-- A name that is not taken: the plain one, or else a numbered one. -/
def choose (taken : List String) (id : String) : String :=
  if taken.contains (plain id) then
    match leastFree? taken id with
    | some n => numbered id n
    | none => plain id
  else plain id

/-- A name that is not taken is kept. -/
theorem choose_of_free {taken : List String} {id : String}
    (free : taken.contains (plain id) = false) : choose taken id = plain id := by
  rw [choose, free]; rfl

end PollScript.Script.TaskName
