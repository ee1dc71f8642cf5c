import PollScript.Catalog
import PollScript.Catalog.Definition
import PollScript.Catalog.Validity

/-!
# The registry

The block types that can be placed. Types are registered in batches. Each type
of a batch must be well-formed and have a name that no type before it has, in
the registry or in the batch. The whole batch is checked before its first type
is put down, and a batch with a fault registers nothing.

Results:

* `attempt_eq`: a batch that passes the check is put behind the registered types,
  and after a fault the registry is as it was.
-/

namespace PollScript

/-- The registered block types, in the order of their registration
    (`BlockRegistry`). -/
structure Registry where
  specs : List BlockSpec
deriving DecidableEq

namespace Registry

def empty : Registry := ⟨[]⟩

def get? (r : Registry) (type : String) : Option BlockSpec :=
  r.specs.find? (·.type = type)

/-- Whether a block type has the name. -/
def contains (r : Registry) (type : String) : Bool :=
  (r.get? type).isSome

/-- The names of the block types, in the order of their registration. -/
def types (r : Registry) : List String :=
  r.specs.map (·.type)

def size (r : Registry) : Nat :=
  r.specs.length

def isEmpty (r : Registry) : Bool :=
  r.specs.isEmpty

/-- Checks a block type of a batch, given the names that stand before it there. -/
def checkSpec (r : Registry) (before : List String) (spec : BlockSpec) :
    Except RegistryError Unit := do
  spec.validate
  if r.contains spec.type || before.contains spec.type then
    throw (.duplicateBlockType spec.type)

/-- Checks the block types of a batch in their order, given the names that stand
    before them there. -/
def checkBatch (r : Registry) (before : List String) :
    List BlockSpec → Except RegistryError Unit
  | [] => .ok ()
  | spec :: rest => do
    r.checkSpec before spec
    r.checkBatch (spec.type :: before) rest

/-- Puts a block type behind those that are there. -/
def push (r : Registry) (spec : BlockSpec) : Registry :=
  ⟨r.specs ++ [spec]⟩

/-- Registers a batch of block types in place: checks it, and then puts its types
    down, one after the other. -/
def registering (batch : List BlockSpec) : ExceptT RegistryError (StateM Registry) Unit := do
  MonadExcept.ofExcept ((← get).checkBatch [] batch)
  batch.forM fun spec => modify (·.push spec)

/-- What comes of registering a batch in place, and the registry afterwards. -/
def attempt (r : Registry) (batch : List BlockSpec) : Except RegistryError Unit × Registry :=
  (registering batch).run.run r

/-- The registry after a batch is registered, or why it is not (`register`). -/
def register (r : Registry) (batch : List BlockSpec) : Except RegistryError Registry :=
  let (result, after) := r.attempt batch
  result.map fun _ => after

/-- The registry of the default catalog. -/
def withDefaultCatalog : Except RegistryError Registry :=
  empty.register Catalog.default

/-- The definitions of all block types, in the order of their registration
    (`to_host_json`). -/
def definitions (r : Registry) : Json.Value :=
  .array (r.specs.map BlockSpec.definition)

/-- Putting down types one after the other leaves them behind those that are there. -/
theorem run_forM_push (batch : List BlockSpec) (r : Registry) :
    (batch.forM fun spec => modify (·.push spec) :
      ExceptT RegistryError (StateM Registry) Unit).run.run r = (.ok (), ⟨r.specs ++ batch⟩) := by
  induction batch generalizing r with
  | nil =>
    show (Except.ok (), r) = _
    rw [List.append_nil]
  | cons spec rest ih =>
    have hrest := ih (r.push spec)
    rw [push, List.append_assoc] at hrest
    exact hrest

/-- A batch that passes the check is put behind the registered types, and after a
    fault the registry is as it was. -/
theorem attempt_eq (r : Registry) (batch : List BlockSpec) :
    r.attempt batch =
      match r.checkBatch [] batch with
      | .ok () => (.ok (), ⟨r.specs ++ batch⟩)
      | .error e => (.error e, r) := by
  have hrun : r.attempt batch =
      ((MonadExcept.ofExcept (r.checkBatch [] batch) >>= fun _ =>
        batch.forM fun spec => modify (·.push spec) :
        ExceptT RegistryError (StateM Registry) Unit).run.run r) := rfl
  rw [hrun]
  cases r.checkBatch [] batch with
  | error e => rfl
  | ok => exact run_forM_push batch r

end Registry

end PollScript
