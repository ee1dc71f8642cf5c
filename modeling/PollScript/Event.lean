/-!
# Events

What the library reports while it works: which block types are registered,
which blocks are emitted, and what is odd about the result.
-/

namespace PollScript

/-- How much an event matters. -/
inductive Severity where
  | trace
  | debug
  | info
  | warning
deriving DecidableEq, Repr

/-- Something that happened. -/
inductive Event where
  | registered (type : String)
  | built (types : Nat)
  | emitting (block type : String)
  | pullOutsideTask (block : String)
  | taskRenamed (block task : String)
  | passFinished (topLevel tasks imports : Nat)
deriving DecidableEq, Repr

namespace Event

def severity : Event → Severity
  | registered _ | built _ => .debug
  | emitting .. => .trace
  | pullOutsideTask _ | taskRenamed .. => .warning
  | passFinished .. => .info

def message : Event → String
  | registered _ => "registered block type"
  | built _ => "generator built"
  | emitting .. => "emitting block"
  | pullOutsideTask _ => "pull_data_async awaited outside a task, the script will not run"
  | taskRenamed .. => "task id already used in this pass, renamed"
  | passFinished .. => "generation pass finished"

/-- The particulars of an event by name. -/
def details : Event → List (String × String)
  | registered type => [("block_type", type)]
  | built types => [("block_types", toString types)]
  | emitting block type => [("block_id", block), ("block_type", type)]
  | pullOutsideTask block => [("block_id", block)]
  | taskRenamed block task => [("block_id", block), ("task", task)]
  | passFinished topLevel tasks imports =>
    [("top_level_blocks", toString topLevel), ("tasks", toString tasks),
     ("imports", toString imports)]

end Event

end PollScript
