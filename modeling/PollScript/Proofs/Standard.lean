import PollScript.Builder
import PollScript.Proofs.BlockTree
import PollScript.Proofs.Registration

/-!
# Generators over the default catalog

The default catalog and the default emitters are two lists that name the same
types in the same order. A generator that is built from them, with or without
further names for the built-in types, pairs the block type of each name with the
emitter that belongs to it.

Results:

* `build_default`: the default builder gives a generator, whatever the width of
  its indentation.
* `standard_of_build`: a generator over the default catalog knows the built-in
  types and the names that stand for them, each with its own emitter, and
  nothing else.
* `plain_of_build`: the default generator knows no other names.
* `parts_of_build`: what a generator that is built is made of.
* `build_of_parts`: what a builder gives if nothing stands in the way. `build_of_unmapped`,
  `build_of_unregistered`, `build_of_unemitted` and `build_of_orphan` are the refusals.
* `mem_orphans`: which emitters have no type.
-/

namespace PollScript

open Script

/-! ## The built-in types -/

/-- A block type with its emitter. -/
structure Builtin where
  spec : BlockSpec
  emitter : Emitter

/-- The block types of the default catalog with their emitters. -/
def builtins : List Builtin :=
  [⟨Catalog.rtuConfig, Emitters.rtuConfig⟩, ⟨Catalog.asciiConfig, Emitters.asciiConfig⟩,
   ⟨Catalog.tcpConfig, Emitters.tcpConfig⟩, ⟨Catalog.pullData, Emitters.pullData⟩,
   ⟨Catalog.setInterval, Emitters.setInterval⟩, ⟨Catalog.getField, Emitters.getField⟩,
   ⟨Catalog.taskDefinition, Emitters.taskDefinition⟩,
   ⟨Catalog.getRegister, Emitters.getRegister⟩, ⟨Catalog.getLimiter, Emitters.getLimiter⟩,
   ⟨Catalog.dcpUpdate, Emitters.dcpUpdate⟩, ⟨Catalog.alarmEvaluator, Emitters.alarmEvaluator⟩,
   ⟨Catalog.log, Emitters.log⟩, ⟨Catalog.text, Emitters.text⟩,
   ⟨Catalog.mathNumber, Emitters.mathNumber⟩, ⟨Catalog.variablesSet, Emitters.variablesSet⟩,
   ⟨Catalog.variablesGet, Emitters.variablesGet⟩]

namespace Builtin

/-- The block type under another name. -/
def named (e : Builtin) (type : String) : BlockSpec :=
  { e.spec with type }

@[simp] theorem named_slot? (e : Builtin) (type : String) :
    (e.named type).slot? = e.spec.slot? :=
  rfl

end Builtin

theorem catalog_eq : Catalog.default = builtins.map (·.spec) :=
  rfl

theorem emitters_eq : Emitters.default = builtins.map fun e => (e.spec.type, e.emitter) :=
  rfl

theorem default_types_nodup : (Catalog.default.map (·.type)).Nodup := by
  rw [Catalog.default_types]
  decide

theorem mem_catalog {e : Builtin} (h : e ∈ builtins) : e.spec ∈ Catalog.default := by
  rw [catalog_eq]
  exact List.mem_map_of_mem h

/-- A built-in type is told by its name. -/
theorem builtin_eq_of_type {e e' : Builtin} (he : e ∈ builtins) (he' : e' ∈ builtins)
    (h : e.spec.type = e'.spec.type) : e = e' := by
  have hnodup : (builtins.map (·.spec.type)).Nodup := by
    have htypes := default_types_nodup
    rwa [catalog_eq, List.map_map] at htypes
  exact List.inj_on_of_nodup_map hnodup he he' h

/-- The types of the default catalog are well-formed. -/
theorem validate_default : ∀ spec ∈ Catalog.default, spec.validate = .ok () := by
  have labels : ∀ spec ∈ Catalog.default, spec.placeholders = spec.expectedPlaceholders := by
    decide +kernel
  have slots : ∀ spec ∈ Catalog.default,
      BlockSpec.slotFault? spec.type [] spec.addressableSlots = none := by
    decide +kernel
  exact fun spec hspec => BlockSpec.validate_eq_ok_iff.mpr ⟨labels spec hspec, slots spec hspec⟩

theorem default_keys_nodup : (Dictionary.keys Emitters.default).Nodup := by
  rw [Emitters.default_keys]
  decide

/-- The emitter of a built-in type is found by the type's name. -/
theorem get?_default_emitters {e : Builtin} (h : e ∈ builtins) :
    Dictionary.get? Emitters.default e.spec.type = some e.emitter :=
  Dictionary.get?_of_nodup default_keys_nodup (emitters_eq ▸ List.mem_map_of_mem h)

/-- An emitter is only found by the name of a built-in type. -/
theorem exists_builtin {type : String} {emitter : Emitter}
    (h : Dictionary.get? Emitters.default type = some emitter) :
    ∃ e ∈ builtins, e.spec.type = type ∧ e.emitter = emitter := by
  have hmem := Dictionary.mem_of_get? h
  rw [emitters_eq] at hmem
  obtain ⟨e, he, heq⟩ := List.mem_map.mp hmem
  cases heq
  exact ⟨e, he, rfl, rfl⟩

/-- Every name stands for a built-in type with its emitter, or for nothing. -/
theorem default_names (type : String) :
    ((∀ spec ∈ Catalog.default, spec.type ≠ type) ∧
        Dictionary.get? Emitters.default type = none) ∨
      ∃ e ∈ builtins, e.spec.type = type ∧
        Dictionary.get? Emitters.default type = some e.emitter := by
  cases hfound : Dictionary.get? Emitters.default type with
  | none =>
    refine .inl ⟨fun spec hspec heq => ?_, rfl⟩
    rw [catalog_eq] at hspec
    obtain ⟨e, he, rfl⟩ := List.mem_map.mp hspec
    subst heq
    rw [get?_default_emitters he] at hfound
    cases hfound
  | some emitter =>
    obtain ⟨e, he, rfl, rfl⟩ := exists_builtin hfound
    exact .inr ⟨e, he, rfl, rfl⟩

/-! ## Building -/

/-- The generator knows the built-in types and other names for them, each with
    its own emitter, and no other types. -/
def Generator.Standard (g : Generator) : Prop :=
  ∀ type, (g.registry.get? type = none ∧ Dictionary.get? g.emitters type = none) ∨
    ∃ e ∈ builtins, g.registry.get? type = some (e.named type) ∧
      Dictionary.get? g.emitters type = some e.emitter

/-- The generator knows the built-in types by their own names only, each with its
    own emitter, and no other types. -/
def Generator.Plain (g : Generator) : Prop :=
  ∀ type, (g.registry.get? type = none ∧ Dictionary.get? g.emitters type = none) ∨
    ∃ e ∈ builtins, e.spec.type = type ∧ g.registry.get? type = some (e.named type) ∧
      Dictionary.get? g.emitters type = some e.emitter

theorem Generator.Plain.standard {g : Generator} (h : g.Plain) : g.Standard := by
  intro type
  rcases h type with hnone | ⟨e, he, -, hknown⟩
  · exact .inl hnone
  · exact .inr ⟨e, he, hknown⟩

namespace Builder

/-- The types begin with the default catalog, and every name with a type or an
    emitter stands for a built-in type with its emitter. -/
structure OverDefaults (b : Builder) : Prop where
  specs : ∃ added, b.specs = Catalog.default ++ added
  /-- Every name stands for nothing or for a built-in type. -/
  names : ∀ type,
    ((∀ spec ∈ b.specs, spec.type ≠ type) ∧ Dictionary.get? b.emitters type = none) ∨
      ∃ e ∈ builtins, e.named type ∈ b.specs ∧ Dictionary.get? b.emitters type = some e.emitter

theorem overDefaults_of_defaults {b : Builder} (specs : b.specs = Catalog.default)
    (emitters : b.emitters = Emitters.default) : b.OverDefaults := by
  refine ⟨⟨[], by simp [specs]⟩, fun type => ?_⟩
  rw [specs, emitters]
  rcases default_names type with hnone | ⟨e, he, rfl, hemitter⟩
  · exact .inl hnone
  · exact .inr ⟨e, he, mem_catalog he, hemitter⟩

/-- A mapping adds a name for the built-in type that it names. -/
theorem overDefaults_applyMapping {b b' : Builder} {mapping : String × String}
    (hb : b.OverDefaults) (h : b.applyMapping mapping = .ok b') :
    b'.OverDefaults ∧ b'.indent = b.indent := by
  obtain ⟨user, builtin⟩ := mapping
  unfold applyMapping at h
  split at h
  · cases h
  · next spec hspec =>
    split at h
    · cases h
    · next emitter hemitter =>
      cases h
      refine ⟨?_, rfl⟩
      obtain ⟨added, hadded⟩ := hb.specs
      obtain ⟨e, he, rfl, rfl⟩ := exists_builtin hemitter
      -- the first type of the built-in name is the one of the default catalog
      have hfirst : Catalog.default.find? (·.type = e.spec.type) = some e.spec :=
        find?_of_nodup default_types_nodup (mem_catalog he) fun _ => decide_eq_true_iff
      obtain rfl : e.spec = spec := by
        rw [hadded, List.find?_append, hfirst] at hspec
        exact Option.some.inj hspec
      refine ⟨⟨added ++ [e.named user], by simp [withEmitter, withSpec, hadded, Builtin.named]⟩,
        fun type => ?_⟩
      by_cases htype : type = user
      · subst htype
        refine .inr ⟨e, he, ?_, ?_⟩
        · simp [withEmitter, withSpec, Builtin.named]
        · simp [withEmitter, withSpec, Dictionary.get?_put]
      · rcases hb.names type with ⟨hnone, hemitters⟩ | ⟨e', he', hmem, hemitters⟩
        · refine .inl ⟨fun other hother => ?_, ?_⟩
          · rcases List.mem_append.mp hother with hother | hother
            · exact hnone other hother
            · rw [List.mem_singleton.mp hother]
              exact fun heq => htype heq.symm
          · simp [withEmitter, withSpec, Dictionary.get?_put, htype, hemitters]
        · refine .inr ⟨e', he', List.mem_append_left _ hmem, ?_⟩
          simp [withEmitter, withSpec, Dictionary.get?_put, htype, hemitters]

theorem overDefaults_applyMappings {mappings : List (String × String)} {b b' : Builder}
    (hb : b.OverDefaults) (h : mappings.foldlM applyMapping b = .ok b') :
    b'.OverDefaults ∧ b'.indent = b.indent := by
  induction mappings generalizing b with
  | nil => cases h; exact ⟨hb, rfl⟩
  | cons mapping rest ih =>
    obtain ⟨mid, hmid, h⟩ := bind_eq_ok.mp h
    obtain ⟨hover, hindent⟩ := overDefaults_applyMapping hb hmid
    obtain ⟨hover', hindent'⟩ := ih hover h
    exact ⟨hover', hindent'.trans hindent⟩

/-- A generator that is built is over the types and the emitters that the mappings lead to. A
    registry took the types, and types and emitters match. -/
theorem parts_of_build {b : Builder} {g : Generator} (h : b.build = .ok g) :
    ∃ b', b.mappings.foldlM applyMapping b = .ok b' ∧
      Registry.empty.register b'.specs = .ok g.registry ∧
      unemitted? g.registry b'.emitters = none ∧ orphans g.registry b'.emitters = [] ∧
      g.emitters = b'.emitters ∧ g.indent = b'.indent := by
  obtain ⟨b', hmapped, h⟩ := bind_eq_ok.mp h
  obtain ⟨registry, hregistered, h⟩ := bind_eq_ok.mp h
  split at h
  · cases h
  · next hemitted =>
    split at h
    · cases h
    · next hknown =>
      cases h
      exact ⟨b', hmapped, hregistered, hemitted, hknown, rfl, rfl⟩

/-- A generator over the default catalog, with any mappings, knows the built-in
    types and the names that stand for them, each with its own emitter. -/
theorem standard_of_build {b : Builder} {g : Generator} (specs : b.specs = Catalog.default)
    (emitters : b.emitters = Emitters.default) (h : b.build = .ok g) :
    g.Standard ∧ g.indent = b.indent := by
  obtain ⟨b', hmapped, hregistered, -, -, hemitters, hindent⟩ := parts_of_build h
  obtain ⟨hover, hkept⟩ :=
    overDefaults_applyMappings (overDefaults_of_defaults specs emitters) hmapped
  obtain ⟨hspecs, -, hnodup⟩ := Registry.register_eq_ok hregistered
  refine ⟨fun type => ?_, hindent.trans hkept⟩
  have hmem : ∀ spec ∈ b'.specs, spec ∈ g.registry.specs := by
    intro spec hspec
    rw [hspecs]
    exact List.mem_append_right _ hspec
  rw [hemitters]
  rcases hover.names type with ⟨hnone, hget⟩ | ⟨e, he, hnamed, hget⟩
  · refine .inl ⟨?_, hget⟩
    rw [Registry.get?, hspecs, List.find?_eq_none]
    intro spec hspec
    simpa [Registry.empty] using hnone spec hspec
  · refine .inr ⟨e, he, ?_, hget⟩
    exact Registry.get?_of_mem (hnodup List.nodup_nil) (hmem _ hnamed)

/-- A builder whose types are taken and match its emitters, once the mappings are applied,
    gives the generator over them. -/
theorem build_of_parts {b b' : Builder} {registry : Registry}
    (mapped : b.mappings.foldlM applyMapping b = .ok b')
    (registered : Registry.empty.register b'.specs = .ok registry)
    (emitted : unemitted? registry b'.emitters = none)
    (known : orphans registry b'.emitters = []) :
    b.build = .ok ⟨registry, b'.emitters, b'.indent⟩ := by
  simp [build, mapped, registered, emitted, known, bind, Except.bind, pure, Except.pure]

theorem build_of_unmapped {b : Builder} {e : RegistryError}
    (h : b.mappings.foldlM applyMapping b = .error e) : b.build = .error e := by
  simp [build, h, bind, Except.bind]

section

variable {b b' : Builder} (mapped : b.mappings.foldlM applyMapping b = .ok b')

include mapped

theorem build_of_unregistered {e : RegistryError}
    (h : Registry.empty.register b'.specs = .error e) : b.build = .error e := by
  simp [build, mapped, h, bind, Except.bind]

variable {registry : Registry} (registered : Registry.empty.register b'.specs = .ok registry)

include registered

theorem build_of_unemitted {type : String} (h : unemitted? registry b'.emitters = some type) :
    b.build = .error (.missingEmitter type) := by
  simp [build, mapped, registered, h, bind, Except.bind, throw, throwThe, MonadExceptOf.throw]

theorem build_of_orphan {type : String} {rest : List String}
    (emitted : unemitted? registry b'.emitters = none)
    (h : orphans registry b'.emitters = type :: rest) : b.build = .error (.missingSpec type) := by
  simp [build, mapped, registered, emitted, h, bind, Except.bind, throw, throwThe,
    MonadExceptOf.throw]

end

/-- The orphans are the names with an emitter but without a type. -/
theorem mem_orphans {r : Registry} {emitters : List (String × Emitter)} {name : String} :
    name ∈ orphans r emitters ↔ Dictionary.has emitters name = true ∧ name ∉ r.types := by
  rw [orphans, Dictionary.mem_keys_sorted, Dictionary.has_iff, Dictionary.keys]
  simp only [List.mem_map, List.mem_filter, Bool.not_eq_true', ← Bool.not_eq_true,
    Registry.contains_iff]
  constructor
  · rintro ⟨entry, ⟨hentry, huntyped⟩, rfl⟩
    exact ⟨⟨entry, hentry, rfl⟩, huntyped⟩
  · rintro ⟨⟨entry, hentry, rfl⟩, huntyped⟩
    exact ⟨entry, ⟨hentry, huntyped⟩, rfl⟩

/-- The first orphan has the least name. -/
theorem le_of_orphans_eq_cons {r : Registry} {emitters : List (String × Emitter)}
    {least : String} {rest : List String} (h : orphans r emitters = least :: rest)
    {name : String} (hname : name ∈ orphans r emitters) : least ≤ name :=
  Dictionary.le_of_keys_sorted_eq_cons h (Dictionary.mem_keys_sorted.mp hname)

/-- Emitters for types of the registry only are no orphans. -/
theorem orphans_eq_nil {r : Registry} {emitters : List (String × Emitter)}
    (h : ∀ entry ∈ emitters, entry.1 ∈ r.types) : orphans r emitters = [] := by
  refine List.eq_nil_iff_forall_not_mem.mpr fun name hname => ?_
  obtain ⟨hhas, huntyped⟩ := mem_orphans.mp hname
  obtain ⟨entry, hentry, rfl⟩ := List.mem_map.mp (Dictionary.has_iff.mp hhas)
  exact huntyped (h entry hentry)

/-- A unit has one space at least. -/
theorem indentWidth_max (b : Builder) (width : Nat) :
    b.indentWidth (max width 1) = b.indentWidth width := by
  rw [indentWidth, indentWidth, Nat.max_assoc, Nat.max_self]

/-- The default builder gives a generator, whatever the width of its
    indentation. -/
theorem build_default (width : Nat) :
    (default.indentWidth width).build = .ok
      ⟨⟨Catalog.default⟩, Emitters.default, (default.indentWidth width).indent⟩ := by
  have hmapped : (default.indentWidth width).mappings.foldlM applyMapping
      (default.indentWidth width) = .ok (default.indentWidth width) := rfl
  refine build_of_parts hmapped
    (Registry.register_of_valid validate_default default_types_nodup) ?_ ?_
  · rw [unemitted?, List.find?_eq_none]
    intro type htype
    obtain ⟨spec, hspec, rfl⟩ := List.mem_map.mp htype
    change spec ∈ builtins.map (·.spec) at hspec
    obtain ⟨e, he, rfl⟩ := List.mem_map.mp hspec
    simp [Dictionary.has, default, indentWidth, get?_default_emitters he]
  · refine orphans_eq_nil fun entry hentry => ?_
    change entry ∈ Emitters.default at hentry
    rw [emitters_eq] at hentry
    obtain ⟨e, he, rfl⟩ := List.mem_map.mp hentry
    exact List.mem_map_of_mem (mem_catalog he)

/-- If no width is chosen, a unit has four blanks. -/
example : default.indentWidth 4 = default := rfl

/-- The default generator knows the built-in types by their own names only. -/
theorem plain_of_build {width : Nat} {g : Generator}
    (h : (default.indentWidth width).build = .ok g) :
    g.Plain ∧ g.indent = (default.indentWidth width).indent := by
  rw [build_default] at h
  rw [← Except.ok.inj h]
  refine ⟨fun type => ?_, rfl⟩
  rcases default_names type with ⟨hspecs, hemitters⟩ | ⟨e, he, rfl, hemitter⟩
  · refine .inl ⟨?_, hemitters⟩
    rw [Registry.get?, List.find?_eq_none]
    intro spec hspec
    simpa using hspecs spec hspec
  · refine .inr ⟨e, he, rfl, ?_, hemitter⟩
    exact Registry.get?_of_mem default_types_nodup (mem_catalog he)

end Builder

end PollScript
