import PollScript.Proofs.Mappings
import PollScript.Proofs.Provenance

/-!
# Setups

A builder is set up by steps in any order: types are added, emitters are set, names are
mapped to built-in types. What is built from it depends on the steps of each kind alone.
The mappings come first. Then the types have to be well-formed and have distinct names, and
then types and emitters have to match. The first of these that fails is reported.

Results:

* `builder_eq`, `builder_congr`: what the steps of each kind leave in the builder, however
  they are mixed.
* `build_of_consistent`, `build_of_fault`: a consistent setup gives a generator, and the first
  violation of consistency is reported.
* `Built.known_of_templates`: with templates for emitters no registered type is called unknown.
* `build_iff`: a generator is built exactly from the consistent setups. It has the types in
  their order, each with its emitter, and calls none of them unknown.
-/

namespace PollScript

open Script

namespace Builder

/-! ## Steps -/

/-- What a builder starts from. -/
inductive Base where
  | catalog
  | nothing

/-- A builder before the first step. -/
def Base.builder : Base → Builder
  | .catalog => default
  | .nothing => empty

/-- A step in setting up a builder. -/
inductive Step where
  | add (spec : BlockSpec)
  | set (type : String) (emitter : Emitter)
  | map (user builtin : String)
  | indent (width : Nat)

namespace Step

/-- The builder after a step. -/
def apply : Step → Builder → Builder
  | .add spec => withSpec spec
  | .set type emitter => withEmitter type emitter
  | .map user builtin => withMapping user builtin
  | .indent width => indentWidth width

/-- The block type that is added. -/
def spec? : Step → Option BlockSpec
  | .add spec => some spec
  | _ => none

/-- The emitter that is set. -/
def emitter? : Step → Option (String × Emitter)
  | .set type emitter => some (type, emitter)
  | _ => none

/-- The new name, with the built-in one. -/
def mapping? : Step → Option (String × String)
  | .map user builtin => some (user, builtin)
  | _ => none

/-- The unit of indentation that is set. -/
def indent? : Step → Option String
  | .indent width => some (String.ofList (List.replicate (max width 1) ' '))
  | _ => none

end Step

end Builder

/-! ## Setups -/

open Builder

/-- How a builder is set up. -/
structure Setup where
  base : Base
  steps : List Step

namespace Setup

/-- The builder after all steps. -/
def builder (s : Setup) : Builder :=
  s.steps.foldl (fun b step => step.apply b) s.base.builder

/-- The types that are added. -/
def addedSpecs (s : Setup) : List BlockSpec :=
  s.steps.filterMap Step.spec?

/-- The types before the mappings: those of the base and those that are added. -/
def specs (s : Setup) : List BlockSpec :=
  s.base.builder.specs ++ s.addedSpecs

/-- The emitters that are set. -/
def customEmitters (s : Setup) : List (String × Emitter) :=
  s.steps.filterMap Step.emitter?

/-- The mappings. -/
def mappings (s : Setup) : List (String × String) :=
  s.steps.filterMap Step.mapping?

/-- Every mapping finds a type and an emitter. -/
def Mapped (s : Setup) : Prop :=
  Mappable (s.specs.map (·.type)) s.mappings

/-- All types, with those of the mappings. -/
def resulting (s : Setup) : List BlockSpec :=
  mapTypes s.specs s.mappings

/-- The names with an emitter: of the base, of emitters that are set, and of mappings. -/
def emitterNames (s : Setup) : List String :=
  Dictionary.keys s.base.builder.emitters ++ s.customEmitters.map (·.1) ++ s.mappings.map (·.1)

/-- All emitters in the order in which they are set, of which the last of a name counts. -/
def emitters (s : Setup) : List (String × Emitter) :=
  s.base.builder.emitters ++ s.customEmitters ++ mapEmitters s.mappings

/-- What the steps of each kind leave in the builder, however they are mixed. -/
theorem builder_eq (s : Setup) :
    s.builder =
      { specs := s.specs
        emitters := Dictionary.putAll s.customEmitters s.base.builder.emitters
        mappings := s.mappings
        indent := ((s.steps.filterMap Step.indent?).getLast?).getD Context.defaultIndent } := by
  obtain ⟨base, steps⟩ := s
  induction steps using List.reverseRecOn with
  | nil =>
    cases base with
    | catalog => rfl
    | nothing => rfl
  | append_singleton steps step ih =>
    have hstep : builder ⟨base, steps ++ [step]⟩ = step.apply (builder ⟨base, steps⟩) := by
      simp [builder]
    rw [hstep, ih]
    simp only [specs, addedSpecs, customEmitters, mappings, List.filterMap_append,
      Dictionary.putAll_append, List.filterMap_cons, List.filterMap_nil]
    cases step <;>
      simp [Step.apply, withSpec, withEmitter, withMapping, indentWidth, Step.spec?,
        Step.emitter?, Step.mapping?, Step.indent?, Dictionary.putAll]

/-- Setups with the same steps of each kind leave the same builder, however the kinds are
    mixed. -/
theorem builder_congr {s t : Setup} (base : s.base = t.base) (specs : s.addedSpecs = t.addedSpecs)
    (emitters : s.customEmitters = t.customEmitters) (mappings : s.mappings = t.mappings)
    (indents : s.steps.filterMap Step.indent? = t.steps.filterMap Step.indent?) :
    s.builder = t.builder := by
  have hspecs : s.specs = t.specs := by rw [Setup.specs, Setup.specs, base, specs]
  rw [builder_eq, builder_eq, hspecs, base, emitters, mappings, indents]

/-! ## Consistency -/

/-- The types are well-formed and have distinct names. -/
def WellFormed (specs : List BlockSpec) : Prop :=
  (∀ spec ∈ specs, spec.validate = .ok ()) ∧ (specs.map (·.type)).Nodup

/-- What a generator can be built from. -/
structure Consistent (s : Setup) : Prop where
  mappable : s.Mapped
  wellFormed : WellFormed s.resulting
  paired : ∀ name, name ∈ s.resulting.map (·.type) ↔ name ∈ s.emitterNames

/-- The first violation of consistency, as an error. -/
inductive Fault (s : Setup) : RegistryError → Prop
  /-- There is no type of the name when the turn of the mapping comes. -/
  | unmapped {before after : List (String × String)} {user builtin : String}
      (turn : s.mappings = before ++ (user, builtin) :: after)
      (mappable : Mappable (s.specs.map (·.type)) before)
      (unknown : builtin ∉ s.specs.map (·.type) ++ before.map (·.1)) :
      Fault s (.missingSpec builtin)
  /-- There is a type of the name, but no built-in emitter. -/
  | foreign {before after : List (String × String)} {user builtin : String}
      (turn : s.mappings = before ++ (user, builtin) :: after)
      (mappable : Mappable (s.specs.map (·.type)) before)
      (known : builtin ∈ s.specs.map (·.type) ++ before.map (·.1))
      (foreign : builtin ∉ Dictionary.keys Emitters.default) :
      Fault s (.missingEmitter builtin)
  /-- A type is not well-formed. -/
  | malformed {front back : List BlockSpec} {spec : BlockSpec} {e : RegistryError}
      (mappable : s.Mapped) (turn : s.resulting = front ++ spec :: back)
      (wellFormed : WellFormed front) (fault : spec.validate = .error e) : Fault s e
  /-- A well-formed type has the name of one before it. -/
  | repeated {front back : List BlockSpec} {spec : BlockSpec}
      (mappable : s.Mapped) (turn : s.resulting = front ++ spec :: back)
      (wellFormed : WellFormed front) (valid : spec.validate = .ok ())
      (taken : spec.type ∈ front.map (·.type)) :
      Fault s (.duplicateBlockType spec.type)
  /-- A type is the first one without an emitter. -/
  | unemitted {front back : List BlockSpec} {spec : BlockSpec}
      (mappable : s.Mapped) (wellFormed : WellFormed s.resulting)
      (turn : s.resulting = front ++ spec :: back)
      (emitted : ∀ earlier ∈ front, earlier.type ∈ s.emitterNames)
      (unemitted : spec.type ∉ s.emitterNames) : Fault s (.missingEmitter spec.type)
  /-- An emitter has the least name of those without a type. -/
  | orphan {name : String} (mappable : s.Mapped) (wellFormed : WellFormed s.resulting)
      (emitted : ∀ spec ∈ s.resulting, spec.type ∈ s.emitterNames)
      (named : name ∈ s.emitterNames) (untyped : name ∉ s.resulting.map (·.type))
      (least : ∀ other ∈ s.emitterNames, other ∉ s.resulting.map (·.type) → name ≤ other) :
      Fault s (.missingSpec name)

/-- What a generator is that is built from the setup. -/
structure Built (s : Setup) (g : Generator) : Prop where
  types : g.registry.types =
    s.base.builder.specs.map (·.type) ++ s.addedSpecs.map (·.type) ++ s.mappings.map (·.1)
  kept : s.specs <+: g.registry.specs
  /-- A mapped type is that of its built-in name but for the name. -/
  mapped : ∀ mapping ∈ s.mappings, ∃ spec, g.registry.get? mapping.2 = some spec ∧
    g.registry.get? mapping.1 = some (spec.renamed mapping.1)
  /-- A type has the emitter that was set last for its name. -/
  emitters : ∀ name, Dictionary.get? g.emitters name = Dictionary.get? s.emitters.reverse name
  paired : ∀ name, name ∈ g.registry.types ↔ Dictionary.has g.emitters name = true
  /-- No emission of a block calls a registered type unknown, unless an emitter that was set
      makes this error up. -/
  known : ∀ (b : Block) (context : Context) (id type : String), type ∈ g.registry.types →
    (g.emitBlock b context).result = .error (.unknownBlockType id type) →
      ∃ entry ∈ s.customEmitters, entry.2.Invents g.indent (.unknownBlockType id type)

/-! ## The parts of a generator -/

/-- The emitters after the mappings. -/
def finalEmitters (s : Setup) : List (String × Emitter) :=
  Dictionary.putAll (mapEmitters s.mappings)
    (Dictionary.putAll s.customEmitters s.base.builder.emitters)

theorem base_keys_nodup (base : Base) : (Dictionary.keys base.builder.emitters).Nodup := by
  cases base with
  | catalog => exact default_keys_nodup
  | nothing => exact List.nodup_nil

/-- The emitter that was set last for a name counts. -/
theorem get?_finalEmitters (s : Setup) (name : String) :
    Dictionary.get? s.finalEmitters name = Dictionary.get? s.emitters.reverse name := by
  rw [finalEmitters, Dictionary.get?_putAll, Dictionary.get?_putAll, emitters,
    List.reverse_append, List.reverse_append, Dictionary.get?_append, Dictionary.get?_append,
    Dictionary.get?_reverse (base_keys_nodup s.base)]

variable {s : Setup}

/-- Once the mappings are done, the names with an emitter are those of the setup. -/
theorem has_finalEmitters (mappable : s.Mapped) {name : String} :
    Dictionary.has s.finalEmitters name = true ↔ name ∈ s.emitterNames := by
  have hkeys : s.emitters.map (·.1) = s.emitterNames := by
    have hmapped : (mapEmitters s.mappings).map (·.1) = s.mappings.map (·.1) :=
      mappable.keys_mapEmitters
    rw [emitters, List.map_append, List.map_append, hmapped]
    rfl
  have hreverse : Dictionary.has s.finalEmitters name = Dictionary.has s.emitters.reverse name := by
    rw [Dictionary.has, get?_finalEmitters, Dictionary.has]
  rw [hreverse, Dictionary.has_iff, List.map_reverse, List.mem_reverse, hkeys]

theorem checkBatch_empty {specs : List BlockSpec} :
    Registry.empty.checkBatch [] specs = .ok () ↔ WellFormed specs := by
  rw [Registry.checkBatch_eq_ok, WellFormed]
  simp [Registry.empty, Registry.types]

theorem register_empty {specs : List BlockSpec} (h : WellFormed specs) :
    Registry.empty.register specs = .ok ⟨specs⟩ := by
  rw [Registry.register_eq, checkBatch_empty.mpr h]
  rfl

/-- The first type that is refused decides. -/
theorem register_of_refused {front back : List BlockSpec} {spec : BlockSpec} {e : RegistryError}
    (wellFormed : WellFormed front)
    (refused : spec.validate = .error e ∨ (spec.validate = .ok () ∧
      spec.type ∈ front.map (·.type) ∧ e = .duplicateBlockType spec.type)) :
    Registry.empty.register (front ++ spec :: back) = .error e := by
  have hspec : Registry.empty.checkSpec ((front.map (·.type)).reverse ++ []) spec = .error e := by
    refine Registry.checkSpec_eq_error.mpr (refused.imp_right fun ⟨valid, taken, he⟩ => ?_)
    exact ⟨valid, .inr (by simpa using taken), he⟩
  rw [Registry.register_eq, Registry.checkBatch_eq_error.mpr
    ⟨front, spec, back, rfl, checkBatch_empty.mpr wellFormed, hspec⟩]
  rfl

theorem mapped_builder (mappable : s.Mapped) :
    s.builder.mappings.foldlM applyMapping s.builder =
      .ok { s.builder with specs := s.resulting, emitters := s.finalEmitters } := by
  rw [builder_eq]
  exact foldlM_applyMapping mappable

/-- The type without an emitter that is reported is the first one. -/
theorem unemitted?_eq_some (mappable : s.Mapped) {type : String} :
    unemitted? ⟨s.resulting⟩ s.finalEmitters = some type ↔ ∃ front spec back,
      s.resulting = front ++ spec :: back ∧ spec.type = type ∧
        (∀ earlier ∈ front, earlier.type ∈ s.emitterNames) ∧ spec.type ∉ s.emitterNames := by
  have hhas : ∀ name, Dictionary.has s.finalEmitters name = true ↔ name ∈ s.emitterNames :=
    fun _ => has_finalEmitters mappable
  simp only [unemitted?, Registry.types, List.find?_map, Option.map_eq_some_iff,
    List.find?_eq_some_iff_append, Function.comp_apply, Bool.not_eq_true', Bool.not_not, hhas,
    ← Bool.not_eq_true]
  constructor
  · rintro ⟨spec, ⟨hnone, front, back, turn, hfront⟩, rfl⟩
    exact ⟨front, spec, back, turn, rfl, hfront, hnone⟩
  · rintro ⟨front, spec, back, turn, rfl, hfront, hnone⟩
    exact ⟨spec, ⟨hnone, front, back, turn, hfront⟩, rfl⟩

theorem unemitted?_eq_none (mappable : s.Mapped) :
    unemitted? ⟨s.resulting⟩ s.finalEmitters = none ↔
      ∀ spec ∈ s.resulting, spec.type ∈ s.emitterNames := by
  have hhas : ∀ name, Dictionary.has s.finalEmitters name = true ↔ name ∈ s.emitterNames :=
    fun _ => has_finalEmitters mappable
  simp [unemitted?, Registry.types, List.find?_eq_none, hhas]

theorem mem_orphans (mappable : s.Mapped) {name : String} :
    name ∈ orphans ⟨s.resulting⟩ s.finalEmitters ↔
      name ∈ s.emitterNames ∧ name ∉ s.resulting.map (·.type) := by
  rw [Builder.mem_orphans, has_finalEmitters mappable, Registry.types]

/-! ## Building -/

/-- A mapping that is refused, after others that are not, is reported. -/
theorem build_of_refused {before after : List (String × String)} {mapping : String × String}
    {e : RegistryError} (turn : s.mappings = before ++ mapping :: after)
    (mappable : Mappable (s.specs.map (·.type)) before)
    (refused : ∀ b : Builder, b.specs.map (·.type) = s.specs.map (·.type) ++ before.map (·.1) →
      b.applyMapping mapping = .error e) : s.builder.build = .error e := by
  refine build_of_unmapped ?_
  rw [builder_eq]
  show s.mappings.foldlM applyMapping _ = _
  rw [turn]
  exact foldlM_applyMapping_error mappable (refused _ (names_mapTypes mappable))

/-- The builder reports the first violation. -/
theorem build_of_fault {e : RegistryError} (h : s.Fault e) : s.builder.build = .error e := by
  cases h with
  | @unmapped before after user builtin turn mappable unknown =>
    exact build_of_refused turn mappable fun _ hnames => applyMapping_of_unknown (hnames ▸ unknown)
  | @foreign before after user builtin turn mappable known foreign =>
    exact build_of_refused turn mappable fun _ hnames =>
      applyMapping_of_foreign (hnames ▸ known) foreign
  | @malformed front back spec e mappable turn wellFormed fault =>
    refine build_of_unregistered (mapped_builder mappable) ?_
    exact turn ▸ register_of_refused wellFormed (.inl fault)
  | @repeated front back spec mappable turn wellFormed valid taken =>
    refine build_of_unregistered (mapped_builder mappable) ?_
    exact turn ▸ register_of_refused wellFormed (.inr ⟨valid, taken, rfl⟩)
  | @unemitted front back spec mappable wellFormed turn emitted unemitted =>
    refine build_of_unemitted (mapped_builder mappable) (register_empty wellFormed) ?_
    exact (unemitted?_eq_some mappable).mpr ⟨front, spec, back, turn, rfl, emitted, unemitted⟩
  | @orphan name mappable wellFormed emitted named untyped least =>
    have hmem : name ∈ orphans ⟨s.resulting⟩ s.finalEmitters :=
      (mem_orphans mappable).mpr ⟨named, untyped⟩
    obtain ⟨first, rest, horphans⟩ := List.exists_cons_of_ne_nil (List.ne_nil_of_mem hmem)
    have hfirst : first ∈ orphans ⟨s.resulting⟩ s.finalEmitters :=
      horphans ▸ List.mem_cons_self
    obtain ⟨hnamed, huntyped⟩ := (mem_orphans mappable).mp hfirst
    have heq : first = name :=
      String.le_antisymm (le_of_orphans_eq_cons horphans hmem) (least first hnamed huntyped)
    rw [← heq]
    exact build_of_orphan (mapped_builder mappable) (register_empty wellFormed)
      ((unemitted?_eq_none mappable).mpr emitted) horphans

theorem build_of_consistent (h : s.Consistent) :
    s.builder.build = .ok ⟨⟨s.resulting⟩, s.finalEmitters, s.builder.indent⟩ := by
  refine build_of_parts (mapped_builder h.mappable) (register_empty h.wellFormed) ?_ ?_
  · refine (unemitted?_eq_none h.mappable).mpr fun spec hspec => ?_
    exact (h.paired _).mp (List.mem_map_of_mem hspec)
  · refine List.eq_nil_iff_forall_not_mem.mpr fun name hname => ?_
    obtain ⟨hnamed, huntyped⟩ := (mem_orphans h.mappable).mp hname
    exact huntyped ((h.paired name).mpr hnamed)

/-! ## First violations -/

theorem fault_or_mapped (s : Setup) : (∃ e, s.Fault e) ∨ s.Mapped := by
  rcases mappable_or (s.specs.map (·.type)) s.mappings with
    mappable | ⟨before, user, builtin, after, turn, hbefore, hnone⟩
  · exact .inr mappable
  · by_cases known : builtin ∈ s.specs.map (·.type) ++ before.map (·.1)
    · exact .inl ⟨_, .foreign turn hbefore known (hnone.resolve_left (not_not_intro known))⟩
    · exact .inl ⟨_, .unmapped turn hbefore known⟩

theorem fault_or_wellFormed (mappable : s.Mapped) :
    (∃ e, s.Fault e) ∨ WellFormed s.resulting := by
  cases hcheck : Registry.empty.checkBatch [] s.resulting with
  | ok => exact .inr (checkBatch_empty.mp hcheck)
  | error e =>
    obtain ⟨front, spec, back, turn, hfront, hspec⟩ := Registry.checkBatch_eq_error.mp hcheck
    have wellFormed := checkBatch_empty.mp hfront
    rcases Registry.checkSpec_eq_error.mp hspec with fault | ⟨valid, taken, rfl⟩
    · exact .inl ⟨e, .malformed mappable turn wellFormed fault⟩
    · have htaken : spec.type ∈ front.map (·.type) := by
        simpa [Registry.empty, Registry.types] using taken
      exact .inl ⟨_, .repeated mappable turn wellFormed valid htaken⟩

theorem fault_or_emitted (mappable : s.Mapped) (wellFormed : WellFormed s.resulting) :
    (∃ e, s.Fault e) ∨ ∀ spec ∈ s.resulting, spec.type ∈ s.emitterNames := by
  cases hunemitted : unemitted? ⟨s.resulting⟩ s.finalEmitters with
  | none => exact .inr ((unemitted?_eq_none mappable).mp hunemitted)
  | some type =>
    obtain ⟨front, spec, back, turn, -, hfront, hspec⟩ :=
      (unemitted?_eq_some mappable).mp hunemitted
    exact .inl ⟨_, .unemitted mappable wellFormed turn hfront hspec⟩

theorem fault_or_typed (mappable : s.Mapped) (wellFormed : WellFormed s.resulting)
    (emitted : ∀ spec ∈ s.resulting, spec.type ∈ s.emitterNames) :
    (∃ e, s.Fault e) ∨ ∀ name ∈ s.emitterNames, name ∈ s.resulting.map (·.type) := by
  cases horphans : orphans ⟨s.resulting⟩ s.finalEmitters with
  | nil =>
    refine .inr fun name hname => ?_
    by_contra huntyped
    have hmem := (mem_orphans mappable).mpr ⟨hname, huntyped⟩
    rw [horphans] at hmem
    cases hmem
  | cons first rest =>
    have hfirst : first ∈ orphans ⟨s.resulting⟩ s.finalEmitters := horphans ▸ List.mem_cons_self
    obtain ⟨named, untyped⟩ := (mem_orphans mappable).mp hfirst
    refine .inl ⟨_, .orphan mappable wellFormed emitted named untyped ?_⟩
    intro other hnamed huntyped
    exact le_of_orphans_eq_cons horphans ((mem_orphans mappable).mpr ⟨hnamed, huntyped⟩)

/-- What is not consistent has a first violation. -/
theorem fault_or_consistent (s : Setup) : (∃ e, s.Fault e) ∨ s.Consistent := by
  rcases s.fault_or_mapped with hfault | mappable
  · exact .inl hfault
  rcases fault_or_wellFormed mappable with hfault | wellFormed
  · exact .inl hfault
  rcases fault_or_emitted mappable wellFormed with hfault | emitted
  · exact .inl hfault
  rcases fault_or_typed mappable wellFormed emitted with hfault | typed
  · exact .inl hfault
  refine .inr ⟨mappable, wellFormed, fun name => ⟨fun hname => ?_, typed name⟩⟩
  obtain ⟨spec, hspec, rfl⟩ := List.mem_map.mp hname
  exact emitted spec hspec

/-! ## What is built -/

/-- An emitter that was found for a name is a built-in one, or it was set. -/
theorem mem_builtins_or_custom {name : String} {emitter : Emitter}
    (h : Dictionary.get? s.finalEmitters name = some emitter) :
    (∃ e ∈ builtins, e.emitter = emitter) ∨ (name, emitter) ∈ s.customEmitters := by
  rw [get?_finalEmitters] at h
  have hmem := List.mem_reverse.mp (Dictionary.mem_of_get? h)
  rw [emitters, List.mem_append, List.mem_append] at hmem
  rcases hmem with (hbase | hcustom) | hmapped
  · cases hs : s.base with
    | nothing =>
      rw [hs] at hbase
      cases hbase
    | catalog =>
      rw [hs] at hbase
      change (name, emitter) ∈ Emitters.default at hbase
      rw [emitters_eq] at hbase
      obtain ⟨e, he, heq⟩ := List.mem_map.mp hbase
      cases heq
      exact .inl ⟨e, he, rfl⟩
  · exact .inr hcustom
  · obtain ⟨mapping, -, hfound⟩ := List.mem_filterMap.mp hmapped
    obtain ⟨other, hother, heq⟩ := Option.map_eq_some_iff.mp hfound
    cases heq
    obtain ⟨e, he, -, hemitter⟩ := exists_builtin hother
    exact .inl ⟨e, he, hemitter⟩

theorem built_of_consistent (h : s.Consistent) :
    s.Built ⟨⟨s.resulting⟩, s.finalEmitters, s.builder.indent⟩ := by
  obtain ⟨added, hadded, -, hmapped⟩ := exists_mapTypes h.mappable
  have hresulting : s.resulting = s.specs ++ added := hadded
  have hnodup : (⟨s.resulting⟩ : Registry).types.Nodup := h.wellFormed.2
  have hpaired : ∀ name, name ∈ (⟨s.resulting⟩ : Registry).types ↔
      Dictionary.has s.finalEmitters name = true :=
    fun name => (h.paired name).trans (has_finalEmitters h.mappable).symm
  refine ⟨?_, ⟨added, hresulting.symm⟩, fun mapping hmapping => ?_, get?_finalEmitters s,
    hpaired, fun b context id type known hresult => ?_⟩
  · show s.resulting.map (·.type) = _
    rw [resulting, names_mapTypes h.mappable, specs, List.map_append]
  · obtain ⟨spec, hspec, htype, hrenamed⟩ := hmapped mapping hmapping
    have hbuiltin : spec ∈ (⟨s.resulting⟩ : Registry).specs := hresulting ▸ hspec
    have huser : spec.renamed mapping.1 ∈ (⟨s.resulting⟩ : Registry).specs :=
      hresulting ▸ List.mem_append_right _ hrenamed
    exact ⟨spec, htype ▸ Registry.get?_of_mem hnodup hbuiltin, Registry.get?_of_mem hnodup huser⟩
  · by_contra hhonest
    refine (Generator.avoids_resolve known (fun name hname => (hpaired name).mp hname) ?_ b).1
      ⟨context, []⟩ hresult
    intro name emitter hemitter hinvents
    rcases mem_builtins_or_custom hemitter with ⟨e, he, rfl⟩ | hcustom
    · exact not_invents_builtins he hinvents
    · exact hhonest ⟨_, hcustom, hinvents⟩

/-- If the emitters that were set are templates, no registered type is called unknown. -/
theorem Built.known_of_templates {g : Generator} (built : s.Built g)
    (templates : ∀ entry ∈ s.customEmitters,
      ∃ template : Emitters.Template, entry.2 = template.emitter)
    (b : Block) (context : Context) (id : String) {type : String}
    (registered : type ∈ g.registry.types) :
    (g.emitBlock b context).result ≠ .error (.unknownBlockType id type) := by
  intro hresult
  obtain ⟨entry, hentry, hinvents⟩ := built.known b context id type registered hresult
  obtain ⟨template, heq⟩ := templates entry hentry
  rw [heq] at hinvents
  exact not_invents_template template hinvents

/-- A generator is built exactly from the consistent setups. Its types stand in the order of
    the base, of the steps that add types and of the mappings, each with its emitter, and no
    emission calls one of them unknown unless an emitter that was set makes this up. From any
    other setup no generator is built, and the first violation is reported. -/
theorem build_iff (s : Setup) :
    ((∃ g, s.builder.build = .ok g) ↔ s.Consistent) ∧
      (∀ g, s.builder.build = .ok g → s.Built g) ∧
      ∀ e, s.builder.build = .error e ↔ s.Fault e := by
  rcases s.fault_or_consistent with ⟨fault, hfault⟩ | consistent
  · have hbuild := build_of_fault hfault
    refine ⟨⟨?_, fun h => ⟨_, build_of_consistent h⟩⟩, ?_, fun e => ⟨?_, build_of_fault⟩⟩
    · rintro ⟨g, hg⟩
      rw [hbuild] at hg
      cases hg
    · intro g hg
      rw [hbuild] at hg
      cases hg
    · intro he
      rw [hbuild] at he
      cases he
      exact hfault
  · have hbuild := build_of_consistent consistent
    refine ⟨⟨fun _ => consistent, fun _ => ⟨_, hbuild⟩⟩, ?_, fun e => ⟨?_, build_of_fault⟩⟩
    · intro g hg
      rw [hbuild] at hg
      cases hg
      exact built_of_consistent consistent
    · intro he
      rw [hbuild] at he
      cases he

/-- A type for texts and another name for it, which is mapped before there is a type. -/
def memo : Setup where
  base := .nothing
  steps := [.map "memo" "text", .add Catalog.text]

/-- The same with an emitter for the type. -/
def spokenMemo : Setup where
  base := .nothing
  steps := [.map "memo" "text",
    .set "text" (Emitters.Template.emitter ⟨[.code "None"], some .atomic⟩), .add Catalog.text]

/-- Without an emitter for the type no generator is built, and the type is reported. With the
    emitter both names are known to a generator, and neither is called unknown. -/
theorem build_memo :
    memo.builder.build = .error (.missingEmitter "text") ∧
      ∃ g, spokenMemo.builder.build = .ok g ∧ g.registry.types = ["text", "memo"] ∧
        ∀ type ∈ g.registry.types, ∀ b context id,
          (g.emitBlock b context).result ≠ .error (.unknownBlockType id type) := by
  have mappable : Mappable ["text"] [("memo", "text")] := ⟨by decide, by decide, trivial⟩
  have wellFormed : WellFormed [Catalog.text, Catalog.text.renamed "memo"] := by
    refine ⟨fun spec hspec => BlockSpec.validate_eq_ok_iff.mpr ?_, by decide⟩
    revert spec
    decide +kernel
  refine ⟨?_, ?_⟩
  · have fault : memo.Fault (.missingEmitter "text") :=
      @Fault.unemitted memo [] [Catalog.text.renamed "memo"] Catalog.text mappable wellFormed rfl
        (fun _ h => nomatch h) (by decide)
    exact ((build_iff memo).2.2 _).mpr fault
  · obtain ⟨g, hg⟩ := (build_iff spokenMemo).1.mpr ⟨mappable, wellFormed, fun _ => Iff.rfl⟩
    have built := (build_iff spokenMemo).2.1 g hg
    refine ⟨g, hg, built.types, fun type htype b context id => ?_⟩
    refine built.known_of_templates (fun entry hentry => ?_) b context id htype
    obtain rfl := List.mem_singleton.mp hentry
    exact ⟨_, rfl⟩

end Setup

end PollScript
