import PollScript.Json.Tree
import PollScript.Json.Value

/-!
# Reading values from trees

A reader takes a tree to a value of some type, or refuses it. Readers of nested
data carry a budget, the number of containers that may still be opened, and a
container inside another one is read with one less. The budget bounds the
nesting of what is read and is also what the recursion goes down on.

A record may be written as an object or as an array of its members in order.
A `Shape` says which names a member has and how many members an array must
have.
-/

namespace PollScript.Json

/-! ## Numbers -/

/-- The whole number that a number without a fraction and an exponent denotes.
    A negative zero is no whole number. -/
def Number.asInt? (n : Number) : Option Int :=
  if n.numeral.isInteger then
    if n.negative then
      if n.numeral.coefficient = 0 then none else some (-(n.numeral.coefficient : Int))
    else some n.numeral.coefficient
  else none

/-- The double nearest to a number, unless the number is too large for one. -/
def Number.asFloat? (n : Number) : Option Float :=
  let magnitude := n.numeral.magnitude
  if magnitude.isFinite then some (if n.negative then -magnitude else magnitude) else none

/-- Whole numbers are stored as such if they fit 64 bits, with or without a
    sign. -/
def fitsWord (n : Int) : Bool :=
  -((UInt64.size / 2 : Nat) : Int) ≤ n && n < (UInt64.size : Int)

/-- The value of a number. -/
def Number.value? (n : Number) : Option Value :=
  match n.asInt? with
  | some i => if fitsWord i then some (.int i) else n.asFloat?.map .float
  | none => n.asFloat?.map .float

/-! ## Values -/

/-- The members of an object, if all keys have a text. -/
def keyed? (members : List (Option String × Tree)) : Option (List (String × Tree)) :=
  members.mapM fun member => member.1.map (·, member.2)

/-- The value of a scalar. -/
def Scalar.value? : Scalar → Option Value
  | .null => some .null
  | .bool b => some (.bool b)
  | .number n => n.value?
  | .text s => s.map .text

/-- Reads any value, with at most `budget` containers inside each other. -/
def Value.ofTree? : (budget : Nat) → Tree → Option Value
  | _, .scalar s => s.value?
  | budget + 1, .array items => (items.mapM (Value.ofTree? budget)).map .array
  | budget + 1, .object members => do
    let members ← keyed? members
    let members ← members.mapM fun member =>
      (Value.ofTree? budget member.2).map (member.1, ·)
    return .ofMembers members
  | 0, _ => none

/-- Opens a container, whose parts are read with a budget that is one less. -/
def within {α : Type} (budget : Nat) (read : Nat → Tree → Option α) (tree : Tree) : Option α :=
  match budget with
  | 0 => none
  | budget + 1 => read budget tree

/-! ## Parts of a record -/

def text? : Tree → Option String
  | .scalar (.text s) => s
  | _ => none

def bool? : Tree → Option Bool
  | .scalar (.bool b) => some b
  | _ => none

/-- Reads a whole number of 32 bits without a sign. -/
def word32? : Tree → Option UInt32
  | .scalar (.number n) =>
    match n.asInt? with
    | some (.ofNat k) => if k < UInt32.size then some (UInt32.ofNat k) else none
    | _ => none
  | _ => none

/-- Reads an array item by item. -/
def list? {α : Type} (item : Tree → Option α) : Tree → Option (List α)
  | .array items => items.mapM item
  | _ => none

/-- Reads an object as a dictionary, in which the last member of a key
    counts. -/
def dictionary? {α : Type} (value : Tree → Option α) : Tree → Option (Dictionary α)
  | .object members => do
    let members ← keyed? members
    let members ← members.mapM fun member => (value member.2).map (member.1, ·)
    return Dictionary.sorted members
  | _ => none

/-- A member that must be there. -/
def required? {α : Type} (read : Tree → Option α) (member : Option Tree) : Option α :=
  member.bind read

/-- A member that may be absent or `null`. -/
def optional? {α : Type} (read : Tree → Option α) : Option Tree → Option (Option α)
  | none => some none
  | some (.scalar .null) => some none
  | some tree => (read tree).map some

/-- A member that may be absent but not `null`. -/
def defaulted? {α : Type} (default : α) (read : Tree → Option α) : Option Tree → Option α
  | none => some default
  | some tree => read tree

/-! ## Records -/

/-- How a record is written. -/
structure Shape where
  /-- The members in order, each with all the names that it may have. -/
  members : List (List String)
  /-- How many members the record has at least when it is an array. -/
  least : Nat

/-- The member with one of the given names. There may not be two. -/
def one? (names : List String) (members : List (String × Tree)) : Option (Option Tree) :=
  match members.filter fun member => names.contains member.1 with
  | [] => some none
  | [member] => some (some member.2)
  | _ => none

/-- The members of a record in the order of its shape, absent ones included.
    Members of an object that the shape does not name are skipped. -/
def Shape.arrange? (shape : Shape) : Tree → Option (List (Option Tree))
  | .object members => do
    let members ← keyed? members
    shape.members.mapM (one? · members)
  | .array items =>
    if shape.least ≤ items.length ∧ items.length ≤ shape.members.length then
      some (items.map some ++ List.replicate (shape.members.length - items.length) none)
    else none
  | .scalar _ => none

end PollScript.Json
