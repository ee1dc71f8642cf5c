import Mathlib.Data.List.Induction
import PollScript.Proofs.Batches
import PollScript.Proofs.Dictionaries
import PollScript.Proofs.Standard

/-!
# Consistent registries

A registry begins without types or with the default catalog, and is changed by calls that each
register a batch and are taken or refused. Whatever the calls are, it knows exactly the types
that it lists, each by its name and as it was given in the call that registered it, and it
exports all of them in the order of their registration.

The same holds where the types are kept in two structures, a table of the types by name and a
list of the names in order. A look-up and a listing then go to different structures, and the
export skips names that the table does not have. Each call changes both structures or none, so
they never come apart and nothing is skipped.

Results:

* `specs_afterCalls`: calls put the batches that are taken behind each other.
* `Sound.afterCalls`: types stay well-formed and names distinct.
* `Indexed.keeps_afterCalls`: table and list hold what the registry holds.
* `consistent_afterCalls`: what holds of every registry that calls lead to.
-/

namespace PollScript.Registry

/-! ## Calls -/

/-- The registry after calls that each register a batch. -/
def afterCalls (r : Registry) (calls : List (List BlockSpec)) : Registry :=
  calls.foldl (fun r batch => (r.attempt batch).2) r

/-- The types that calls register, in the order of their registration. -/
def registeredBy (r : Registry) : List (List BlockSpec) → List BlockSpec
  | [] => []
  | batch :: rest =>
    match (r.attempt batch).1 with
    | .ok () => batch ++ registeredBy (r.attempt batch).2 rest
    | .error _ => registeredBy (r.attempt batch).2 rest

theorem afterCalls_append (r : Registry) (front back : List (List BlockSpec)) :
    r.afterCalls (front ++ back) = (r.afterCalls front).afterCalls back :=
  List.foldl_append

theorem afterCalls_concat (r : Registry) (calls : List (List BlockSpec))
    (batch : List BlockSpec) :
    r.afterCalls (calls ++ [batch]) = ((r.afterCalls calls).attempt batch).2 :=
  afterCalls_append r calls [batch]

/-- The batches that are taken stand behind the types of before, one after the other. -/
theorem specs_afterCalls (r : Registry) (calls : List (List BlockSpec)) :
    (r.afterCalls calls).specs = r.specs ++ r.registeredBy calls := by
  induction calls generalizing r with
  | nil => exact (List.append_nil _).symm
  | cons batch rest ih =>
    have hrest : (r.afterCalls (batch :: rest)).specs =
        (r.attempt batch).2.specs ++ (r.attempt batch).2.registeredBy rest := ih _
    rw [hrest, registeredBy]
    cases hbatch : (r.attempt batch).1 with
    | ok => rw [attempt_snd_of_ok hbatch, List.append_assoc]
    | error e => rw [attempt_snd_of_error hbatch]

/-- Earlier types never move. -/
theorem types_afterCalls_append (r : Registry) (front back : List (List BlockSpec)) :
    (r.afterCalls front).types <+: (r.afterCalls (front ++ back)).types := by
  refine ⟨((r.afterCalls front).registeredBy back).map (·.type), ?_⟩
  rw [afterCalls_append, types, types, specs_afterCalls (r.afterCalls front), List.map_append]

/-! ## The invariant -/

/-- All types are well-formed and no two of them share a name. -/
structure Sound (r : Registry) : Prop where
  nodup : r.types.Nodup
  valid : ∀ spec ∈ r.specs, spec.validate = .ok ()

theorem sound_empty : Sound empty :=
  ⟨List.nodup_nil, fun _ h => nomatch h⟩

/-- A registration is the call with what it leaves, unless it is refused. -/
theorem register_eq_attempt (r : Registry) (batch : List BlockSpec) :
    r.register batch = (r.attempt batch).1.map fun _ => (r.attempt batch).2 :=
  rfl

/-- What a call leaves is sound if what it finds is. -/
theorem Sound.attempt {r : Registry} (h : r.Sound) (batch : List BlockSpec) :
    (r.attempt batch).2.Sound := by
  cases hbatch : (r.attempt batch).1 with
  | error e =>
    rw [attempt_snd_of_error hbatch]
    exact h
  | ok =>
    have hregister : r.register batch = .ok (r.attempt batch).2 := by
      rw [register_eq_attempt, hbatch]
      rfl
    obtain ⟨hspecs, hvalid, hnodup⟩ := register_eq_ok hregister
    refine ⟨hnodup h.nodup, fun spec hspec => ?_⟩
    rw [hspecs] at hspec
    rcases List.mem_append.mp hspec with hspec | hspec
    · exact h.valid spec hspec
    · exact hvalid spec hspec

theorem Sound.afterCalls {r : Registry} (h : r.Sound) (calls : List (List BlockSpec)) :
    (r.afterCalls calls).Sound := by
  induction calls using List.reverseRecOn with
  | nil => exact h
  | append_singleton calls batch ih =>
    rw [afterCalls_concat]
    exact ih.attempt batch

theorem mem_of_get? {r : Registry} {name : String} {spec : BlockSpec}
    (h : r.get? name = some spec) : spec ∈ r.specs ∧ spec.type = name :=
  ⟨List.mem_of_find?_eq_some h, of_decide_eq_true (List.find?_some h :)⟩

/-- In a sound registry the name at a place is that of the type at this place. -/
theorem Sound.get?_types {r : Registry} (h : r.Sound) {i : Nat} {name : String}
    (hname : r.types[i]? = some name) :
    ∃ spec, r.specs[i]? = some spec ∧ r.get? name = some spec := by
  rw [types, List.getElem?_map, Option.map_eq_some_iff] at hname
  obtain ⟨spec, hspec, rfl⟩ := hname
  exact ⟨spec, hspec, get?_of_mem h.nodup (List.mem_of_getElem? hspec)⟩

/-- The call that registered a name is the one before which the name was unknown. It was given
    the type that the name stands for, and no other type of that name. -/
theorem exists_call {calls : List (List BlockSpec)} {name : String} {spec : BlockSpec}
    (h : (empty.afterCalls calls).get? name = some spec) :
    ∃ front batch back, calls = front ++ batch :: back ∧
      name ∉ (empty.afterCalls front).types ∧
      name ∈ (empty.afterCalls (front ++ [batch])).types ∧
      spec ∈ batch ∧ ∀ other ∈ batch, other.type = name → other = spec := by
  induction calls using List.reverseRecOn with
  | nil => cases h
  | append_singleton calls batch ih =>
    have hsound := sound_empty.afterCalls calls
    have hafter := sound_empty.afterCalls (calls ++ [batch])
    rw [afterCalls_concat] at h hafter
    cases hbatch : ((empty.afterCalls calls).attempt batch).1 with
    | error e =>
      rw [attempt_snd_of_error hbatch] at h
      obtain ⟨front, call, back, rfl, hcall⟩ := ih h
      exact ⟨front, call, back ++ [batch], by simp, hcall⟩
    | ok =>
      rw [attempt_snd_of_ok hbatch] at h hafter
      obtain ⟨hspec, htype⟩ := mem_of_get? h
      by_cases hknown : name ∈ (empty.afterCalls calls).types
      · obtain ⟨old, hold, rfl⟩ := List.mem_map.mp hknown
        have hsame := get?_of_mem hafter.nodup (List.mem_append_left batch hold)
        rw [Option.some.inj (h.symm.trans hsame)] at ih
        obtain ⟨front, call, back, rfl, hcall⟩ := ih (get?_of_mem hsound.nodup hold)
        rw [Option.some.inj (h.symm.trans hsame)]
        exact ⟨front, call, back ++ [batch], by simp, hcall⟩
      · have hnew : spec ∈ batch :=
          (List.mem_append.mp hspec).resolve_left fun hold =>
            hknown (htype ▸ List.mem_map_of_mem hold)
        refine ⟨calls, batch, [], rfl, hknown, ?_, hnew, fun other hother hname => ?_⟩
        · rw [afterCalls_concat, attempt_snd_of_ok hbatch, ← htype]
          exact List.mem_map_of_mem (List.mem_append_right _ hnew)
        · have hfound := get?_of_mem hafter.nodup (List.mem_append_right _ hother)
          rw [hname] at hfound
          exact Option.some.inj (hfound.symm.trans h)

/-! ## Table and list -/

/-- A registry that is kept as a table of the types by name and a list of the names. -/
structure Indexed where
  table : Dictionary BlockSpec
  order : List String

namespace Indexed

/-- Table and list without types. -/
def empty : Indexed := ⟨[], []⟩

/-- Checks a batch, for which only the table and the names of the batch are looked at. -/
def checkBatch (x : Indexed) (before : List String) :
    List BlockSpec → Except RegistryError Unit
  | [] => .ok ()
  | spec :: rest => do
    spec.validate
    if Dictionary.has x.table spec.type || before.contains spec.type then
      throw (.duplicateBlockType spec.type)
    x.checkBatch (spec.type :: before) rest

/-- Puts a type into both structures. -/
def push (x : Indexed) (spec : BlockSpec) : Indexed :=
  ⟨Dictionary.put spec.type spec x.table, x.order ++ [spec.type]⟩

/-- Registers a batch: what comes of it, and both structures afterwards. -/
def attempt (x : Indexed) (batch : List BlockSpec) : Except RegistryError Unit × Indexed :=
  match x.checkBatch [] batch with
  | .ok () => (.ok (), batch.foldl push x)
  | .error e => (.error e, x)

/-- Both structures after calls. -/
def afterCalls (x : Indexed) (calls : List (List BlockSpec)) : Indexed :=
  calls.foldl (fun x batch => (x.attempt batch).2) x

/-- The definitions of the listed types. Names without a type are skipped. -/
def definitions (x : Indexed) : Json.Value :=
  .array ((x.order.filterMap (Dictionary.get? x.table)).map BlockSpec.definition)

/-- Table and list hold what a registry holds. -/
structure Keeps (x : Indexed) (r : Registry) : Prop where
  order : x.order = r.types
  table : ∀ name, Dictionary.get? x.table name = r.get? name

theorem keeps_empty : Keeps empty Registry.empty :=
  ⟨rfl, fun _ => rfl⟩

theorem Keeps.checkBatch_eq {x : Indexed} {r : Registry} (h : x.Keeps r) (before : List String)
    (batch : List BlockSpec) : x.checkBatch before batch = r.checkBatch before batch := by
  induction batch generalizing before with
  | nil => rfl
  | cons spec rest ih =>
    have hhas : Dictionary.has x.table spec.type = r.contains spec.type := by
      rw [Dictionary.has, h.table, contains]
    rw [checkBatch, hhas, checkBatch_cons, checkSpec, bind_assoc]
    congr 1
    funext _
    by_cases hknown : (r.contains spec.type || before.contains spec.type) = true
    · simp only [hknown, if_true]
      rfl
    · simp only [hknown]
      exact ih _

/-- A type with a new name goes to both structures as it goes to the registry. -/
theorem Keeps.push {x : Indexed} {r : Registry} (h : x.Keeps r) {spec : BlockSpec}
    (hnew : spec.type ∉ r.types) : (x.push spec).Keeps (r.push spec) := by
  refine ⟨?_, fun name => ?_⟩
  · show x.order ++ [spec.type] = (r.specs ++ [spec]).map (·.type)
    rw [h.order, List.map_append]
    rfl
  · show Dictionary.get? (Dictionary.put spec.type spec x.table) name =
      (r.specs ++ [spec]).find? (·.type = name)
    rw [Dictionary.get?_put, h.table, List.find?_append]
    by_cases hname : name = spec.type
    · have hnone : r.get? name = none := by
        rw [← Option.not_isSome_iff_eq_none]
        exact fun hsome => hnew (hname ▸ contains_iff.mp hsome)
      rw [get?] at hnone
      simp [hname ▸ hnone, hname]
    · simp [hname, Ne.symm hname, get?]

theorem Keeps.pushAll {x : Indexed} {r : Registry} (h : x.Keeps r) {batch : List BlockSpec}
    (hnew : ∀ spec ∈ batch, spec.type ∉ r.types) (hnodup : (batch.map (·.type)).Nodup) :
    (batch.foldl Indexed.push x).Keeps ⟨r.specs ++ batch⟩ := by
  induction batch generalizing x r with
  | nil => rwa [List.append_nil]
  | cons spec rest ih =>
    rw [List.map_cons, List.nodup_cons] at hnodup
    have hspec := h.push (hnew spec List.mem_cons_self)
    have hrest := ih hspec (fun other hother hmem => ?_) hnodup.2
    · rwa [Registry.push, List.append_assoc] at hrest
    · rw [types, Registry.push, List.map_append, List.mem_append] at hmem
      rcases hmem with hmem | hmem
      · exact hnew other (List.mem_cons_of_mem _ hother) hmem
      · have hsame : other.type = spec.type := List.mem_singleton.mp hmem
        exact hnodup.1 (hsame ▸ List.mem_map_of_mem hother)

/-- A call changes both structures or none, as it changes the registry. -/
theorem Keeps.attempt {x : Indexed} {r : Registry} (h : x.Keeps r) (batch : List BlockSpec) :
    (x.attempt batch).1 = (r.attempt batch).1 ∧
      (x.attempt batch).2.Keeps (r.attempt batch).2 := by
  rw [Indexed.attempt, h.checkBatch_eq, attempt_eq]
  cases hcheck : r.checkBatch [] batch with
  | error e => exact ⟨rfl, h⟩
  | ok =>
    obtain ⟨hall, hnodup⟩ := checkBatch_eq_ok.mp hcheck
    exact ⟨rfl, h.pushAll (fun spec hspec => (hall spec hspec).2.1) hnodup⟩

theorem keeps_afterCalls (calls : List (List BlockSpec)) :
    (empty.afterCalls calls).Keeps (Registry.empty.afterCalls calls) := by
  induction calls using List.reverseRecOn with
  | nil => exact keeps_empty
  | append_singleton calls batch ih =>
    rw [afterCalls, List.foldl_concat, afterCalls_concat]
    exact (ih.attempt batch).2

/-- Where both structures hold what a sound registry holds, no name is skipped. -/
theorem Keeps.definitions_eq {x : Indexed} {r : Registry} (h : x.Keeps r) (hr : r.Sound) :
    x.definitions = r.definitions := by
  have hfound : ∀ specs : List BlockSpec, (∀ spec ∈ specs, spec ∈ r.specs) →
      (specs.map (·.type)).filterMap (Dictionary.get? x.table) = specs := by
    intro specs hspecs
    rw [List.filterMap_map]
    have hsome : ∀ spec ∈ specs, (Dictionary.get? x.table ∘ (·.type)) spec = some spec := by
      intro spec hspec
      rw [Function.comp_apply, h.table]
      exact get?_of_mem hr.nodup (hspecs spec hspec)
    rw [List.filterMap_congr hsome, List.filterMap_some]
  rw [definitions, h.order, types, hfound r.specs fun _ => id]
  rfl

end Indexed

/-! ## All registries -/

/-- Where a registry begins. -/
inductive Origin where
  | nothing
  | catalog

/-- The registry at the beginning. -/
def Origin.registry : Origin → Except RegistryError Registry
  | .nothing => .ok empty
  | .catalog => withDefaultCatalog

/-- The calls that make the registry at the beginning. -/
def Origin.calls : Origin → List (List BlockSpec)
  | .nothing => []
  | .catalog => [Catalog.default]

theorem Origin.registry_eq (origin : Origin) :
    origin.registry = .ok (empty.afterCalls origin.calls) := by
  cases origin with
  | nothing => rfl
  | catalog =>
    have htaken := register_of_valid (r := empty) validate_default default_types_nodup
    have hcall : empty.afterCalls [Catalog.default] = (empty.attempt Catalog.default).2 :=
      afterCalls_concat empty [] Catalog.default
    rw [Origin.registry, Origin.calls, withDefaultCatalog, hcall]
    cases hbatch : (empty.attempt Catalog.default).1 with
    | error e =>
      rw [register_eq_attempt, hbatch] at htaken
      cases htaken
    | ok => rw [htaken, attempt_snd_of_ok hbatch]

/-- What holds of the registry that calls lead to from nothing. -/
structure Consistent (calls : List (List BlockSpec)) (r : Registry) : Prop where
  nodup : r.types.Nodup
  listed : ∀ name, (∃ spec, r.get? name = some spec) ↔ name ∈ r.types
  contains : ∀ name, r.contains name = true ↔ name ∈ r.types
  named : ∀ name spec, r.get? name = some spec → spec.type = name
  valid : ∀ name spec, r.get? name = some spec → spec.validate = .ok ()
  /-- It is the one that was given in the call that registered the name. -/
  given : ∀ name spec, r.get? name = some spec →
    ∃ front batch back, calls = front ++ batch :: back ∧
      name ∉ (empty.afterCalls front).types ∧
      name ∈ (empty.afterCalls (front ++ [batch])).types ∧
      spec ∈ batch ∧ ∀ other ∈ batch, other.type = name → other = spec
  ordered : r.types = (empty.registeredBy calls).map (·.type)
  /-- Names that were there earlier have not moved. -/
  kept : ∀ front back, calls = front ++ back → (empty.afterCalls front).types <+: r.types
  size : r.size = r.types.length
  /-- The export has one object for each name, in order: the definition of its type. -/
  definitions : ∃ items, r.definitions = .array items ∧ items.length = r.size ∧
    ∀ (i : Nat) (name : String), r.types[i]? = some name → ∃ spec members,
      r.get? name = some spec ∧ items[i]? = some spec.definition ∧
        spec.definition = .object members
  /-- Table and list say the same, and nothing is skipped when they are exported. -/
  indexed : (Indexed.empty.afterCalls calls).order = r.types ∧
    (∀ name, Dictionary.get? (Indexed.empty.afterCalls calls).table name = r.get? name) ∧
    (Indexed.empty.afterCalls calls).definitions = r.definitions

theorem consistent_empty_afterCalls (calls : List (List BlockSpec)) :
    Consistent calls (empty.afterCalls calls) := by
  have hsound := sound_empty.afterCalls calls
  have hkeeps := Indexed.keeps_afterCalls calls
  have hspecs : (empty.afterCalls calls).specs = empty.registeredBy calls :=
    specs_afterCalls empty calls
  refine
    { nodup := hsound.nodup
      listed := fun name => ?_
      contains := fun _ => contains_iff
      named := fun name spec h => (mem_of_get? h).2
      valid := fun name spec h => hsound.valid spec (mem_of_get? h).1
      given := fun name spec h => exists_call h
      ordered := by rw [types, hspecs]
      kept := fun front back h => h ▸ types_afterCalls_append empty front back
      size := (List.length_map _).symm
      definitions := ⟨_, rfl, List.length_map _, fun i name h => ?_⟩
      indexed := ⟨hkeeps.order, hkeeps.table, hkeeps.definitions_eq hsound⟩ }
  · rw [← contains_iff, Registry.contains, Option.isSome_iff_exists]
  · obtain ⟨spec, hspec, hfound⟩ := hsound.get?_types h
    exact ⟨spec, _, hfound, by rw [List.getElem?_map, hspec]; rfl, rfl⟩

/-- Whatever calls follow the beginning of a registry, taken or refused, the registry is
    consistent. -/
theorem consistent_afterCalls (origin : Origin) (calls : List (List BlockSpec)) :
    ∃ start, origin.registry = .ok start ∧
      Consistent (origin.calls ++ calls) (start.afterCalls calls) := by
  refine ⟨_, origin.registry_eq, ?_⟩
  rw [← afterCalls_append]
  exact consistent_empty_afterCalls _

end PollScript.Registry
