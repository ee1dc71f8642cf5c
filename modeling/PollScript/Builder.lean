import PollScript.Emitters
import PollScript.Generator

/-!
# Building generators

A builder collects block types, emitters and names that stand for built-in
block types. It gives a generator only if block types and emitters match one to
one.
-/

namespace PollScript

open Script

/-- What a generator is built from (`GeneratorBuilder`). -/
structure Builder where
  specs : List BlockSpec
  emitters : List (String × Emitter)
  /-- New names for built-in block types, each with the built-in name. -/
  mappings : List (String × String)
  indent : String

namespace Builder

def empty : Builder where
  specs := []
  emitters := []
  mappings := []
  indent := Context.defaultIndent

/-- The default catalog and its emitters. -/
def default : Builder :=
  { empty with specs := Catalog.default, emitters := Emitters.default }

def withSpec (spec : BlockSpec) (b : Builder) : Builder :=
  { b with specs := b.specs ++ [spec] }

/-- Sets the emitter of a block type, in place of one that it has
    (`with_custom_emitter`). -/
def withEmitter (type : String) (emitter : Emitter) (b : Builder) : Builder :=
  { b with emitters := Dictionary.put type emitter b.emitters }

/-- Lets a new name stand for a built-in block type (`with_type_mapping`). -/
def withMapping (user builtin : String) (b : Builder) : Builder :=
  { b with mappings := b.mappings ++ [(user, builtin)] }

/-- Sets the unit of indentation to so many spaces, but at least one
    (`indent_width`). -/
def indentWidth (width : Nat) (b : Builder) : Builder :=
  { b with indent := String.ofList (List.replicate (max width 1) ' ') }

/-! ## Building -/

/-- Adds what a mapping stands for: the block type under its new name, and the
    emitter. The block type may itself come from an earlier mapping, but the
    emitter must be a built-in one. -/
def applyMapping (b : Builder) (mapping : String × String) : Except RegistryError Builder :=
  match b.specs.find? (·.type = mapping.2) with
  | none => .error (.missingSpec mapping.2)
  | some spec =>
    match Dictionary.get? Emitters.default mapping.2 with
    | none => .error (.missingEmitter mapping.2)
    | some emitter =>
      .ok ((b.withSpec { spec with type := mapping.1 }).withEmitter mapping.1 emitter)

/-- The first block type without an emitter. -/
def unemitted? (r : Registry) (emitters : List (String × Emitter)) : Option String :=
  r.types.find? fun type => !Dictionary.has emitters type

/-- The emitters without a block type, in ascending order of their names. -/
def orphans (r : Registry) (emitters : List (String × Emitter)) : List String :=
  Dictionary.keys (Dictionary.sorted (emitters.filter fun entry => !r.contains entry.1))

/-- Builds the generator: applies the mappings in their order, registers the
    block types as one batch, and compares them with the emitters (`build`). -/
def build (b : Builder) : Except RegistryError Generator := do
  let b ← b.mappings.foldlM applyMapping b
  let registry ← Registry.empty.register b.specs
  match unemitted? registry b.emitters with
  | some type => throw (.missingEmitter type)
  | none =>
    match orphans registry b.emitters with
    | type :: _ => throw (.missingSpec type)
    | [] => return ⟨registry, b.emitters, b.indent⟩

/-- What `build` reports, besides its result. -/
def events (g : Generator) : List Event :=
  g.registry.types.map .registered ++ [.built g.registry.size]

end Builder

end PollScript
