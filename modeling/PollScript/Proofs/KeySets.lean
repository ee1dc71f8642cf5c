import Mathlib.Data.Finset.Insert
import PollScript.Proofs.History

/-!
# Contexts with key sets

A request looks at the keys that were requested before it, and a script shows the texts that
came with them. So a context can keep the keys as a set that is never shown, and the texts as a
list that is never searched. Both are emptied together, but finalising empties the imports and
the helpers one after the other, and requests an import of its own in between.

Such a context cannot be told from one that keeps each key with its text.

Results:

* `Definitions.Holds.insert`: a request does the same to key set and list as to the entries.
* `KeyedApart.Holds.apply`: an operation answers the same and does the same to both contexts.
* `alike_after`: at every point of their history, both contexts show and answer the same.
-/

namespace PollScript.Script.Context

/-! ## Definitions -/

/-- Definitions, as the set of their keys and the list of their texts (`OrderedDefinitions`). -/
structure Definitions where
  keys : Finset String
  entries : List String

namespace Definitions

def empty : Definitions := ⟨∅, []⟩

/-- Adds a text unless its key is in the set. Answers whether it was added. -/
def insert (key text : String) (d : Definitions) : Bool × Definitions :=
  if key ∈ d.keys then (false, d) else (true, ⟨Insert.insert key d.keys, d.entries ++ [text]⟩)

/-- Forgets the keys and gives the texts away. -/
def take (d : Definitions) : List String × Definitions :=
  (d.entries, empty)

/-- Set and list hold what the entries hold. -/
structure Holds (d : Definitions) (entries : List (String × String)) : Prop where
  keys : ∀ key, key ∈ d.keys ↔ key ∈ entries.map (·.1)
  texts : d.entries = entries.map (·.2)

theorem holds_empty : empty.Holds [] :=
  ⟨fun _ => iff_of_false (Finset.notMem_empty _) List.not_mem_nil, rfl⟩

variable {d : Definitions} {entries : List (String × String)}

/-- A request does the same to key set and list as to the entries. -/
theorem Holds.insert (h : d.Holds entries) (key text : String) :
    (d.insert key text).1 = (request key text entries).1 ∧
      (d.insert key text).2.Holds (request key text entries).2 := by
  have hknown : key ∈ d.keys ↔ Dictionary.has entries key = true :=
    (h.keys key).trans Dictionary.has_iff.symm
  rw [Definitions.insert, request]
  by_cases hkey : key ∈ d.keys
  · rw [if_pos hkey, if_pos (hknown.mp hkey)]
    exact ⟨rfl, h⟩
  · rw [if_neg hkey, if_neg (mt hknown.mpr hkey)]
    refine ⟨rfl, fun other => ?_, ?_⟩
    · rw [Finset.mem_insert, h.keys, List.map_append, List.mem_append, or_comm]
      exact or_congr_right List.mem_singleton.symm
    · rw [h.texts, List.map_append]
      rfl

end Definitions

/-! ## Contexts -/

/-- A context that keeps keys apart from texts. -/
structure KeyedApart where
  indent : String
  imports : Definitions
  helpers : Definitions
  tasks : List String
  taskDepth : Nat

namespace KeyedApart

def withIndent (indent : String) : KeyedApart :=
  ⟨indent, .empty, .empty, [], 0⟩

/-- What the context shows. -/
def recorded (s : KeyedApart) : Recorded :=
  ⟨s.imports.entries, s.helpers.entries, s.tasks, 0 < s.taskDepth⟩

def hasTask (s : KeyedApart) (name : String) : Bool :=
  s.tasks.contains name

def requireImport (key line : String) (s : KeyedApart) : Bool × KeyedApart :=
  let (isNew, imports) := s.imports.insert key line
  (isNew, { s with imports })

def provideHelper (key code : String) (s : KeyedApart) : Bool × KeyedApart :=
  let (isNew, helpers) := s.helpers.insert key code
  (isNew, { s with helpers })

/-- Forgets all that was collected. The texts that come out of the definitions are not used. -/
def reset (s : KeyedApart) : KeyedApart :=
  { s with imports := s.imports.take.2, helpers := s.helpers.take.2, tasks := [], taskDepth := 0 }

def takeTasks (s : KeyedApart) : List String × KeyedApart :=
  (s.tasks, { s with tasks := [], taskDepth := 0 })

/-- Requests the import that launching tasks needs. -/
def requireRunner (tasks : List String) (s : KeyedApart) : KeyedApart :=
  if tasks.isEmpty then s else (s.requireImport "asyncio" "import asyncio").2

def takeImports (s : KeyedApart) : List String × KeyedApart :=
  let (texts, imports) := s.imports.take
  (texts, { s with imports })

def takeHelpers (s : KeyedApart) : List String × KeyedApart :=
  let (texts, helpers) := s.helpers.take
  (texts, { s with helpers })

/-- Puts the collected parts around the code, and empties the context part by part. -/
def finalize (code : String) (s : KeyedApart) : String × KeyedApart :=
  let (tasks, s) := s.takeTasks
  let s := s.requireRunner tasks
  let (imports, s) := s.takeImports
  let (helpers, s) := s.takeHelpers
  (Text.tidy (joinSections (arrange s.indent imports helpers tasks code)), s)

/-- Does an operation. -/
def apply : (operation : Operation) → KeyedApart → operation.Answer × KeyedApart
  | .requireImport key line, s => s.requireImport key line
  | .provideHelper key code, s => s.provideHelper key code
  | .registerTask name, s => ((), { s with tasks := s.tasks ++ [name] })
  | .enterTask, s => ((), { s with taskDepth := s.taskDepth + 1 })
  | .leaveTask, s => ((), { s with taskDepth := s.taskDepth - 1 })
  | .reset, s => ((), s.reset)
  | .finalize code, s => s.finalize code

/-- The context after operations. -/
def after (s : KeyedApart) (history : List Operation) : KeyedApart :=
  history.foldl (fun s operation => (s.apply operation).2) s

/-- The context holds what one with whole entries holds. -/
structure Holds (s : KeyedApart) (c : Context) : Prop where
  indent : s.indent = c.indent
  imports : s.imports.Holds c.imports
  helpers : s.helpers.Holds c.helpers
  tasks : s.tasks = c.tasks
  depth : s.taskDepth = c.taskDepth

theorem holds_withIndent (indent : String) :
    (withIndent indent).Holds (Context.withIndent indent) :=
  ⟨rfl, Definitions.holds_empty, Definitions.holds_empty, rfl, rfl⟩

variable {s : KeyedApart} {c : Context}

theorem Holds.recorded_eq (h : s.Holds c) : s.recorded = c.recorded := by
  rw [recorded, h.imports.texts, h.helpers.texts, h.tasks, h.depth]
  rfl

theorem Holds.hasTask_eq (h : s.Holds c) (name : String) : s.hasTask name = c.hasTask name := by
  rw [hasTask, h.tasks]
  rfl

theorem Holds.requireImport (h : s.Holds c) (key line : String) :
    (s.requireImport key line).1 = (c.requireImport key line).1 ∧
      (s.requireImport key line).2.Holds (c.requireImport key line).2 := by
  obtain ⟨hanswer, himports⟩ := h.imports.insert key line
  exact ⟨hanswer, { h with imports := himports }⟩

theorem Holds.provideHelper (h : s.Holds c) (key code : String) :
    (s.provideHelper key code).1 = (c.provideHelper key code).1 ∧
      (s.provideHelper key code).2.Holds (c.provideHelper key code).2 := by
  obtain ⟨hanswer, hhelpers⟩ := h.helpers.insert key code
  exact ⟨hanswer, { h with helpers := hhelpers }⟩

/-- A reset forgets the keys, so every key is new in both contexts. -/
theorem Holds.reset (h : s.Holds c) : s.reset.Holds c.reset :=
  ⟨h.indent, Definitions.holds_empty, Definitions.holds_empty, rfl, rfl⟩

theorem Holds.takeTasks (h : s.Holds c) :
    s.takeTasks.1 = c.takeTasks.1 ∧ s.takeTasks.2.Holds c.takeTasks.2 :=
  ⟨h.tasks, { h with tasks := rfl, depth := rfl }⟩

theorem Holds.requireRunner (h : s.Holds c) (tasks : List String) :
    (s.requireRunner tasks).Holds (c.requireRunner tasks) := by
  unfold KeyedApart.requireRunner Context.requireRunner
  split
  · exact h
  · exact (h.requireImport "asyncio" "import asyncio").2

theorem Holds.takeImports (h : s.Holds c) :
    s.takeImports.1 = c.takeImports.1 ∧ s.takeImports.2.Holds c.takeImports.2 :=
  ⟨h.imports.texts, { h with imports := Definitions.holds_empty }⟩

theorem Holds.takeHelpers (h : s.Holds c) :
    s.takeHelpers.1 = c.takeHelpers.1 ∧ s.takeHelpers.2.Holds c.takeHelpers.2 :=
  ⟨h.helpers.texts, { h with helpers := Definitions.holds_empty }⟩

/-- Finalising gives the same script, because what is taken out of both contexts is the same in
    each of its steps. -/
theorem Holds.finalize (h : s.Holds c) (code : String) :
    (s.finalize code).1 = (c.finalize code).1 ∧
      (s.finalize code).2.Holds (c.finalize code).2 := by
  unfold KeyedApart.finalize Context.finalize
  have htasks := h.takeTasks
  generalize s.takeTasks = taken, c.takeTasks = taken' at htasks ⊢
  obtain ⟨tasks, s⟩ := taken
  obtain ⟨_, c⟩ := taken'
  obtain ⟨rfl, hclosed⟩ := htasks
  have hready := hclosed.requireRunner tasks
  obtain ⟨himports, hbare⟩ := hready.takeImports
  obtain ⟨hhelpers, hempty⟩ := hbare.takeHelpers
  refine ⟨?_, hempty⟩
  dsimp only
  rw [himports, hhelpers, hempty.indent]

/-- An operation answers the same and does the same to both contexts. -/
theorem Holds.apply (h : s.Holds c) (operation : Operation) :
    (s.apply operation).1 = (c.apply operation).1 ∧
      (s.apply operation).2.Holds (c.apply operation).2 := by
  cases operation with
  | requireImport key line => exact h.requireImport key line
  | provideHelper key code => exact h.provideHelper key code
  | registerTask name => exact ⟨rfl, { h with tasks := congrArg (· ++ [name]) h.tasks }⟩
  | enterTask => exact ⟨rfl, { h with depth := congrArg (· + 1) h.depth }⟩
  | leaveTask => exact ⟨rfl, { h with depth := congrArg (· - 1) h.depth }⟩
  | reset => exact ⟨rfl, h.reset⟩
  | finalize code => exact h.finalize code

theorem holds_after (indent : String) (history : List Operation) :
    ((withIndent indent).after history).Holds ((Context.withIndent indent).after history) := by
  induction history using List.reverseRecOn with
  | nil => exact holds_withIndent indent
  | append_singleton history operation ih =>
    rw [after, List.foldl_concat, Context.after, List.foldl_concat]
    exact (ih.apply operation).2

end KeyedApart

/-- At every point of their history, a context that keeps keys apart and one that keeps them with
    their texts show the same, and answer every operation the same. -/
theorem alike_after (indent : String) (history : List Operation) :
    let s := (KeyedApart.withIndent indent).after history
    let c := (withIndent indent).after history
    s.recorded = c.recorded ∧ (∀ name, s.hasTask name = c.hasTask name) ∧
      ∀ operation, (s.apply operation).1 = (c.apply operation).1 :=
  have h := KeyedApart.holds_after indent history
  ⟨h.recorded_eq, h.hasTask_eq, fun operation => (h.apply operation).1⟩

end PollScript.Script.Context
