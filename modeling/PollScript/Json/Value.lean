import PollScript.Dictionary
import PollScript.Decimal.Layout

/-!
# JSON values

A JSON value by its meaning: integers and floating-point numbers are told
apart, and the members of an object are a sorted dictionary, so that two values
written in different ways are equal.

Results:

* `number_of_finite`: a finite number is kept as it is.
-/

namespace PollScript.Json

/-- A JSON value. The members of an object are in ascending order of their
    keys, each key once. -/
inductive Value where
  | null
  | bool (b : Bool)
  /-- A whole number written without a fraction and an exponent. -/
  | int (n : Int)
  | float (x : Float)
  | text (s : String)
  | array (items : List Value)
  | object (members : List (String × Value))

instance : Inhabited Value := ⟨.null⟩

namespace Value

/-- The object with the given members. The last member of a key counts. -/
def ofMembers (members : List (String × Value)) : Value :=
  .object (Dictionary.sorted members)

/-- A number that may not be finite. JSON has no such numbers, so they become
    `null`. -/
def number (x : Float) : Value :=
  if x.isFinite then .float x else .null

def asText? : Value → Option String
  | .text s => some s
  | _ => none

def member? (v : Value) (key : String) : Option Value :=
  match v with
  | .object members => Dictionary.get? members key
  | _ => none

/-- A finite number is kept as it is. -/
theorem number_of_finite {x : Float} (h : x.isFinite = true) : number x = .float x := by
  simp [number, h]

end Value

end PollScript.Json
