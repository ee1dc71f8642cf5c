import PollScript.Proofs.Standard

/-!
# Mappings

A mapping puts a type under a new name. It takes the first type of its built-in name, among
the types that are there when its turn comes, so it may take one that a mapping before it
put there. It takes the emitter that belongs to the built-in name, whatever emitter was set
for that name. The first mapping that does not find both is refused.

Results:

* `foldlM_applyMapping`: what mappings add, if each of them finds a type and an emitter.
* `exists_mapTypes`: the types that they add.
* `foldlM_applyMapping_error`, `mappable_or`: otherwise the first one that does not is
  refused.
-/

namespace PollScript

open Script

/-- The block type under another name. -/
def BlockSpec.renamed (spec : BlockSpec) (type : String) : BlockSpec :=
  { spec with type }

namespace Builder

/-- Each mapping names a type that is there when its turn comes, and that has a built-in
    emitter. -/
def Mappable : List String → List (String × String) → Prop
  | _, [] => True
  | names, (user, builtin) :: rest =>
    builtin ∈ names ∧ builtin ∈ Dictionary.keys Emitters.default ∧ Mappable (names ++ [user]) rest

/-- The block types after mappings, each of which puts the first type of the built-in name
    under the new name behind the others. -/
def mapTypes : List BlockSpec → List (String × String) → List BlockSpec
  | specs, [] => specs
  | specs, (user, builtin) :: rest =>
    let mapped := (specs.find? (·.type = builtin)).map (·.renamed user)
    mapTypes (specs ++ mapped.toList) rest

/-- The emitters that mappings set, each under its new name. -/
def mapEmitters (mappings : List (String × String)) : List (String × Emitter) :=
  mappings.filterMap fun mapping =>
    (Dictionary.get? Emitters.default mapping.2).map fun emitter => (mapping.1, emitter)

theorem exists_find?_of_mem {specs : List BlockSpec} {type : String}
    (h : type ∈ specs.map (·.type)) :
    ∃ spec ∈ specs, spec.type = type ∧ specs.find? (·.type = type) = some spec := by
  have hfound : (specs.find? (·.type = type)).isSome = true := by
    obtain ⟨spec, hspec, rfl⟩ := List.mem_map.mp h
    exact List.find?_isSome.mpr ⟨spec, hspec, by simp⟩
  obtain ⟨spec, hspec⟩ := Option.isSome_iff_exists.mp hfound
  exact ⟨spec, List.mem_of_find?_eq_some hspec, by simpa using List.find?_some hspec, hspec⟩

theorem exists_get?_of_mem {type : String} (h : type ∈ Dictionary.keys Emitters.default) :
    ∃ emitter, Dictionary.get? Emitters.default type = some emitter :=
  Option.isSome_iff_exists.mp (Dictionary.has_iff.mpr h)

/-- A mapping that finds its type and its emitter adds both under the new name. -/
theorem applyMapping_of_found {b : Builder} {user builtin : String} {spec : BlockSpec}
    {emitter : Emitter} (hspec : b.specs.find? (·.type = builtin) = some spec)
    (hemitter : Dictionary.get? Emitters.default builtin = some emitter) :
    b.applyMapping (user, builtin) =
      .ok ((b.withSpec (spec.renamed user)).withEmitter user emitter) := by
  simp [applyMapping, hspec, hemitter, BlockSpec.renamed]

/-- Mappings that each find a type and an emitter add them in their order. -/
theorem foldlM_applyMapping {mappings : List (String × String)} {b : Builder}
    (h : Mappable (b.specs.map (·.type)) mappings) :
    mappings.foldlM applyMapping b =
      .ok { b with
        specs := mapTypes b.specs mappings
        emitters := Dictionary.putAll (mapEmitters mappings) b.emitters } := by
  induction mappings generalizing b with
  | nil => rfl
  | cons mapping rest ih =>
    obtain ⟨user, builtin⟩ := mapping
    obtain ⟨hknown, hbuiltin, hrest⟩ := h
    obtain ⟨spec, -, -, hspec⟩ := exists_find?_of_mem hknown
    obtain ⟨emitter, hemitter⟩ := exists_get?_of_mem hbuiltin
    have hnext : Mappable (((b.withSpec (spec.renamed user)).withEmitter user
        emitter).specs.map (·.type)) rest := by
      simpa [withSpec, withEmitter, BlockSpec.renamed] using hrest
    have htypes : mapTypes b.specs ((user, builtin) :: rest) =
        mapTypes (b.specs ++ [spec.renamed user]) rest := by
      simp [mapTypes, hspec]
    have hemitters : mapEmitters ((user, builtin) :: rest) =
        (user, emitter) :: mapEmitters rest := by
      simp [mapEmitters, hemitter]
    rw [List.foldlM_cons, applyMapping_of_found hspec hemitter, htypes, hemitters]
    exact ih hnext

/-- Mappings put types of the new names behind the others, each of them like that of its
    built-in name. -/
theorem exists_mapTypes {mappings : List (String × String)} {specs : List BlockSpec}
    (h : Mappable (specs.map (·.type)) mappings) :
    ∃ added, mapTypes specs mappings = specs ++ added ∧
      added.map (·.type) = mappings.map (·.1) ∧
      ∀ mapping ∈ mappings, ∃ spec ∈ specs ++ added, spec.type = mapping.2 ∧
        spec.renamed mapping.1 ∈ added := by
  induction mappings generalizing specs with
  | nil => exact ⟨[], (List.append_nil specs).symm, rfl, fun _ h => nomatch h⟩
  | cons mapping rest ih =>
    obtain ⟨user, builtin⟩ := mapping
    obtain ⟨hknown, -, hrest⟩ := h
    obtain ⟨spec, hmem, htype, hspec⟩ := exists_find?_of_mem hknown
    have hnext : Mappable ((specs ++ [spec.renamed user]).map (·.type)) rest := by
      simpa [BlockSpec.renamed] using hrest
    obtain ⟨added, hadded, hnames, hmapped⟩ := ih hnext
    refine ⟨spec.renamed user :: added, ?_, ?_, ?_⟩
    · simp [mapTypes, hspec, hadded]
    · simp [hnames, BlockSpec.renamed]
    · intro other hother
      rcases List.mem_cons.mp hother with rfl | hother
      · exact ⟨spec, List.mem_append_left _ hmem, htype, List.mem_cons_self⟩
      · obtain ⟨source, hsource, hsourceType, hrenamed⟩ := hmapped other hother
        refine ⟨source, ?_, hsourceType, List.mem_cons_of_mem _ hrenamed⟩
        rwa [List.append_assoc] at hsource

theorem names_mapTypes {mappings : List (String × String)} {specs : List BlockSpec}
    (h : Mappable (specs.map (·.type)) mappings) :
    (mapTypes specs mappings).map (·.type) = specs.map (·.type) ++ mappings.map (·.1) := by
  obtain ⟨added, hadded, hnames, -⟩ := exists_mapTypes h
  rw [hadded, List.map_append, hnames]

/-- A mapping of a name without a type is refused. -/
theorem applyMapping_of_unknown {b : Builder} {user builtin : String}
    (unknown : builtin ∉ b.specs.map (·.type)) :
    b.applyMapping (user, builtin) = .error (.missingSpec builtin) := by
  have hnone : b.specs.find? (·.type = builtin) = none := by
    rw [List.find?_eq_none]
    intro spec hspec htype
    exact unknown (List.mem_map.mpr ⟨spec, hspec, by simpa using htype⟩)
  simp [applyMapping, hnone]

/-- A mapping of a name with a type but without a built-in emitter is refused. -/
theorem applyMapping_of_foreign {b : Builder} {user builtin : String}
    (known : builtin ∈ b.specs.map (·.type))
    (foreign : builtin ∉ Dictionary.keys Emitters.default) :
    b.applyMapping (user, builtin) = .error (.missingEmitter builtin) := by
  obtain ⟨spec, -, -, hspec⟩ := exists_find?_of_mem known
  simp [applyMapping, hspec, Dictionary.get?_eq_none foreign]

/-- The first mapping that is refused decides. -/
theorem foldlM_applyMapping_error {before after : List (String × String)}
    {mapping : String × String} {b : Builder} {e : RegistryError}
    (h : Mappable (b.specs.map (·.type)) before)
    (refused : applyMapping
      { b with
        specs := mapTypes b.specs before
        emitters := Dictionary.putAll (mapEmitters before) b.emitters } mapping = .error e) :
    (before ++ mapping :: after).foldlM applyMapping b = .error e := by
  rw [List.foldlM_append, foldlM_applyMapping h]
  show (mapping :: after).foldlM applyMapping _ = _
  rw [List.foldlM_cons, refused]
  rfl

theorem Mappable.mem_keys {mappings : List (String × String)} {names : List String}
    (h : Mappable names mappings) :
    ∀ mapping ∈ mappings, mapping.2 ∈ Dictionary.keys Emitters.default := by
  induction mappings generalizing names with
  | nil => exact fun _ hmem => nomatch hmem
  | cons mapping rest ih =>
    intro other hother
    rcases List.mem_cons.mp hother with rfl | hother
    · exact h.2.1
    · exact ih h.2.2 other hother

/-- Each mapping sets an emitter. -/
theorem Mappable.keys_mapEmitters {mappings : List (String × String)} {names : List String}
    (h : Mappable names mappings) :
    Dictionary.keys (mapEmitters mappings) = mappings.map (·.1) := by
  have hkeys := h.mem_keys
  clear h
  induction mappings with
  | nil => rfl
  | cons mapping rest ih =>
    obtain ⟨emitter, hemitter⟩ := exists_get?_of_mem (hkeys mapping List.mem_cons_self)
    have hrest := ih fun other hother => hkeys other (List.mem_cons_of_mem _ hother)
    simp only [Dictionary.keys, mapEmitters, List.filterMap_cons, hemitter, Option.map_some,
      List.map_cons] at hrest ⊢
    rw [hrest]

/-- If not every mapping finds a type and an emitter, there is a first one that does not. -/
theorem mappable_or (names : List String) (mappings : List (String × String)) :
    Mappable names mappings ∨ ∃ before user builtin after,
      mappings = before ++ (user, builtin) :: after ∧ Mappable names before ∧
        (builtin ∉ names ++ before.map (·.1) ∨ builtin ∉ Dictionary.keys Emitters.default) := by
  induction mappings generalizing names with
  | nil => exact .inl trivial
  | cons mapping rest ih =>
    obtain ⟨user, builtin⟩ := mapping
    by_cases hfound : builtin ∈ names ∧ builtin ∈ Dictionary.keys Emitters.default
    · rcases ih (names ++ [user]) with hrest | ⟨before, other, name, after, rfl, hbefore, hnone⟩
      · exact .inl ⟨hfound.1, hfound.2, hrest⟩
      · refine .inr ⟨(user, builtin) :: before, other, name, after, rfl,
          ⟨hfound.1, hfound.2, hbefore⟩, ?_⟩
        rwa [List.append_assoc] at hnone
    · refine .inr ⟨[], user, builtin, rest, rfl, trivial, ?_⟩
      rw [List.map_nil, List.append_nil]
      exact not_and_or.mp hfound

end Builder

end PollScript
