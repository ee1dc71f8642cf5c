import PollScript.Json.Token

/-!
# JSON trees

A JSON document as written: members keep their order and their repetitions, and
numbers keep their spelling. Every text has at most one tree. A stack of open
containers builds it from the tokens one at a time, so that nesting is limited
by nothing.

Results:

* `Builder.run_append`: building from tokens in two parts is building from all.
-/

namespace PollScript.Json

/-- A document as written. The key of a member has no text when it spells half
    of a surrogate pair. -/
inductive Tree where
  | scalar (s : Scalar)
  | array (items : List Tree)
  | object (members : List (Option String × Tree))

namespace Builder

/-- An open container with its finished parts, last first. -/
inductive Frame where
  | array (reversed : List Tree)
  | object (reversed : List (Option String × Tree))
  /-- An object in which the value of a member is under way. -/
  | member (reversed : List (Option String × Tree)) (key : Option String)

/-- What may come next. -/
inductive Stage where
  | value
  | valueOrEnd
  | key
  | keyOrEnd
  | colon (key : Option String)
  | separator

inductive State where
  /-- Containers are open, or no value has come yet. -/
  | building (frames : List Frame) (stage : Stage)
  | complete (tree : Tree)

def start : State := .building [] .value

/-- Gives a finished value to the innermost container. -/
def deliver (tree : Tree) : List Frame → Option State
  | [] => some (.complete tree)
  | .array items :: frames => some (.building (.array (tree :: items) :: frames) .separator)
  | .member members key :: frames =>
    some (.building (.object ((key, tree) :: members) :: frames) .separator)
  | .object _ :: _ => none

/-- Begins a value. -/
def begin? (frames : List Frame) : Token → Option State
  | .scalar s => deliver (.scalar s) frames
  | .opening .array => some (.building (.array [] :: frames) .valueOrEnd)
  | .opening .object => some (.building (.object [] :: frames) .keyOrEnd)
  | _ => none

/-- Takes the key of a member. -/
def takeKey? (frames : List Frame) : Token → Option State
  | .scalar (.text key) => some (.building frames (.colon key))
  | _ => none

/-- Closes the innermost container. -/
def close? (container : Container) (frames : List Frame) : Option State :=
  match container, frames with
  | .array, .array items :: rest => deliver (.array items.reverse) rest
  | .object, .object members :: rest => deliver (.object members.reverse) rest
  | _, _ => none

/-- Goes on after a comma. -/
def continue? (frames : List Frame) : Option State :=
  match frames with
  | .array _ :: _ => some (.building frames .value)
  | .object _ :: _ => some (.building frames .key)
  | _ => none

/-- Goes on after the colon of a member. -/
def enterMember? (key : Option String) (frames : List Frame) : Option State :=
  match frames with
  | .object members :: rest => some (.building (.member members key :: rest) .value)
  | _ => none

def step (s : State) (token : Token) : Option State :=
  match s with
  | .complete _ => none
  | .building frames stage =>
    match stage, token with
    | .value, _ => begin? frames token
    | .valueOrEnd, .closing .array => close? .array frames
    | .valueOrEnd, _ => begin? frames token
    | .key, _ => takeKey? frames token
    | .keyOrEnd, .closing .object => close? .object frames
    | .keyOrEnd, _ => takeKey? frames token
    | .colon key, .colon => enterMember? key frames
    | .colon _, _ => none
    | .separator, .comma => continue? frames
    | .separator, .closing container => close? container frames
    | .separator, _ => none

def run (s : State) (tokens : List Token) : Option State :=
  tokens.foldlM step s

/-- The document, if it is complete. -/
def State.tree? : State → Option Tree
  | .complete tree => some tree
  | .building .. => none

/-- Building from tokens in two parts is building from all. -/
theorem run_append (s : State) (front back : List Token) :
    run s (front ++ back) = (run s front).bind (run · back) := by
  simp [run, List.foldlM_append, Option.bind_eq_bind]

end Builder

/-- The tree of a sequence of tokens. -/
def Tree.ofTokens? (tokens : List Token) : Option Tree :=
  (Builder.run Builder.start tokens).bind Builder.State.tree?

/-- Reads a whole text as a JSON document. -/
def Tree.read? (text : String) : Option Tree :=
  (Token.ofChars? text.toList).bind Tree.ofTokens?

end PollScript.Json
