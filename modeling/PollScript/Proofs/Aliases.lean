import PollScript.Proofs.Widths

/-!
# Aliases

A name that is mapped to a built-in type is an alias of it: blocks of the one may be
blocks of the other, anywhere in a workspace, and nothing comes of it but the name of the
type in errors. The shape and the emitter of an alias are found apart from each other when
the generator is built, and every question about a slot goes through the alias again.

Results:

* `Builder.build_withMapping`: a new name for a built-in type gives a generator.
* `Variation.generators_alias`: it is a counterpart of the generator without the name.
* `Generator.generate_alias`: blocks of the new name give the script or the error that
  blocks of the built-in type give.
-/

namespace PollScript

open Script

/-! ## Types under other names -/

theorem Slot.fault?_eq_none {type other : String} {slot : Slot}
    (h : slot.fault? type = none) : slot.fault? other = none := by
  unfold Slot.fault? at h ⊢
  split at h
  · cases h
  · split at h
    · cases h
    · next hbounds => exact if_neg hbounds
  · rfl

theorem BlockSpec.slotFault?_eq_none {type other : String} {seen : List String}
    {slots : List Slot} (h : slotFault? type seen slots = none) :
    slotFault? other seen slots = none := by
  obtain ⟨hnew, hnodup, hfaults⟩ := slotFault?_eq_none_iff.mp h
  exact slotFault?_eq_none_iff.mpr
    ⟨hnew, hnodup, fun slot hslot => Slot.fault?_eq_none (hfaults slot hslot)⟩

/-- A well-formed type is so under any name. -/
theorem Builtin.validate_named {e : Builtin} (he : e ∈ builtins) (type : String) :
    (e.named type).validate = .ok () := by
  obtain ⟨hlabel, hslots⟩ := BlockSpec.validate_eq_ok_iff.mp (validate_default _ (mem_catalog he))
  exact BlockSpec.validate_eq_ok_iff.mpr ⟨hlabel, BlockSpec.slotFault?_eq_none hslots⟩

namespace Builder

variable {user : String} {e : Builtin} {width : Nat}

/-- The builder with the type that the mapping adds. -/
theorem applyMapping_eq (he : e ∈ builtins) :
    applyMapping ((default.indentWidth width).withMapping user e.spec.type) (user, e.spec.type) =
      .ok { (default.indentWidth width).withMapping user e.spec.type with
        specs := Catalog.default ++ [e.named user]
        emitters := Dictionary.put user e.emitter Emitters.default } := by
  have hspec : Catalog.default.find? (·.type = e.spec.type) = some e.spec :=
    find?_of_nodup default_types_nodup (mem_catalog he) fun _ => decide_eq_true_iff
  unfold applyMapping
  rw [show ((default.indentWidth width).withMapping user e.spec.type).specs = Catalog.default
    from rfl, hspec, get?_default_emitters he]
  rfl

/-- A new name for a built-in type gives a generator, which knows the type and its emitter
    under that name too. -/
theorem build_withMapping (he : e ∈ builtins) (hnew : user ∉ Catalog.default.map (·.type)) :
    ((default.indentWidth width).withMapping user e.spec.type).build =
      .ok ⟨⟨Catalog.default ++ [e.named user]⟩, Dictionary.put user e.emitter Emitters.default,
        (default.indentWidth width).indent⟩ := by
  have hmapped : ((default.indentWidth width).withMapping user e.spec.type).mappings.foldlM
      applyMapping ((default.indentWidth width).withMapping user e.spec.type) =
        .ok { (default.indentWidth width).withMapping user e.spec.type with
          specs := Catalog.default ++ [e.named user]
          emitters := Dictionary.put user e.emitter Emitters.default } := by
    show applyMapping _ (user, e.spec.type) >>= pure = _
    rw [bind_pure, applyMapping_eq he]
  have htypes : (Catalog.default ++ [e.named user]).map (·.type) =
      Catalog.default.map (·.type) ++ [user] := List.map_append
  refine build_of_parts hmapped (Registry.register_of_valid ?_ ?_) ?_ ?_
  · -- the renamed type is as well-formed as the built-in one
    intro spec hspec
    rcases List.mem_append.mp hspec with hspec | hspec
    · exact validate_default spec hspec
    · rw [List.mem_singleton.mp hspec]
      exact e.validate_named he user
  · show ((Catalog.default ++ [e.named user]).map (·.type)).Nodup
    rw [htypes]
    refine List.nodup_append.mpr ⟨default_types_nodup, by simp, ?_⟩
    rintro type htype _ hother rfl
    exact hnew (List.mem_singleton.mp hother ▸ htype)
  · -- a type that is not the new one has its default emitter still
    rw [unemitted?, List.find?_eq_none]
    intro type htype
    change type ∈ (Catalog.default ++ [e.named user]).map (·.type) at htype
    rw [htypes] at htype
    simp only [Dictionary.has, Dictionary.get?_put]
    rcases List.mem_append.mp htype with htype | htype
    · obtain ⟨spec, hspec, rfl⟩ := List.mem_map.mp htype
      change spec ∈ builtins.map (·.spec) at hspec
      obtain ⟨e', he', rfl⟩ := List.mem_map.mp hspec
      rw [get?_default_emitters he']
      split <;> simp
    · rw [List.mem_singleton.mp htype]
      simp
  · refine orphans_eq_nil fun entry hentry => ?_
    show entry.1 ∈ (Catalog.default ++ [e.named user]).map (·.type)
    rw [htypes]
    rcases Dictionary.mem_put hentry with rfl | hentry
    · exact List.mem_append_right _ (List.mem_singleton.mpr rfl)
    · rw [emitters_eq] at hentry
      obtain ⟨e', he', rfl⟩ := List.mem_map.mp hentry
      exact List.mem_append_left _ (List.mem_map_of_mem (mem_catalog he'))

end Builder

/-! ## Aliases -/

/-- The built-in name that a name stands for. -/
def unalias (user builtin type : String) : String :=
  if type = user then builtin else type

/-- The block `c` is the block `b` of the same type, or of the new name instead of the
    built-in one, apart from the blocks around them. The block `b` is not of the new name. -/
structure Block.Retypes (user builtin : String) (b c : Block) : Prop where
  id : b.id = c.id
  notUser : b.type ≠ user
  /-- The type is kept, or a built-in one is renamed. -/
  type : c.type = b.type ∨ (b.type = builtin ∧ c.type = user)
  enabled : b.enabled = c.enabled
  fields : ∀ slot, b.field? slot = c.field? slot

/-- No block of the first workspace is of the new name, and in the second one some of the
    blocks of the built-in type are. -/
def Workspace.Retypes (user builtin : String) (w u : Workspace) : Prop :=
  List.Forall₂ (Block.Along (Block.Retypes user builtin)) w.blocks u.blocks

theorem Block.Retypes.type_eq {user builtin : String} {b c : Block}
    (h : b.Retypes user builtin c) : b.type = unalias user builtin c.type := by
  unfold unalias
  rcases h.type with htype | ⟨hbuiltin, huser⟩
  · rw [htype, if_neg h.notUser]
  · rw [huser, if_pos rfl, hbuiltin]

namespace Variation

/-- With a new name for a built-in type, the default generator knows the same types. -/
theorem generators_alias {v : Variation} {user : String} {e : Builtin} (he : e ∈ builtins)
    (hnew : user ∉ Catalog.default.map (·.type)) (hrename : v.rename = unalias user e.spec.type)
    (hwidth : v.first = v.second) {g h : Generator}
    (hg : (Builder.default.indentWidth v.first).build = .ok g)
    (hh : ((Builder.default.indentWidth v.first).withMapping user e.spec.type).build = .ok h) :
    v.Generators g h := by
  obtain ⟨hplain, hindent⟩ := Builder.plain_of_build hg
  have hunit : (Builder.default.indentWidth v.first).indent = v.leftIndent := by
    show String.ofList (List.replicate (max v.first 1) ' ') = _
    rw [Nat.max_eq_left v.first_pos]
    rfl
  rw [Builder.build_default] at hg
  rw [Builder.build_withMapping he hnew] at hh
  cases hg
  cases hh
  have hright : v.leftIndent = v.rightIndent := by
    show String.ofList (List.replicate v.first ' ') = String.ofList (List.replicate v.second ' ')
    rw [hwidth]
  refine ⟨hunit, hunit.trans hright, hplain, fun type => ?_, fun type => ?_⟩
  · rw [hrename, unalias]
    by_cases htype : type = user
    · subst htype
      have hnone : Catalog.default.find? (·.type = type) = none := by
        rw [List.find?_eq_none]
        exact fun spec hspec heq => hnew (List.mem_map.mpr ⟨spec, hspec, of_decide_eq_true heq⟩)
      have halias : (Registry.mk (Catalog.default ++ [e.named type])).get? type =
          some (e.named type) := by
        simp [Registry.get?, List.find?_append, hnone, Builtin.named]
      have hbuiltin : (Registry.mk Catalog.default).get? e.spec.type = some e.spec :=
        Registry.get?_of_mem default_types_nodup (mem_catalog he)
      rw [if_pos rfl, halias, hbuiltin]
      rfl
    · rw [if_neg htype, Registry.map_get?]
      simp [Registry.get?, List.find?_append, Builtin.named, Ne.symm htype]
  · rw [hrename, unalias, Dictionary.get?_put]
    split
    · exact (get?_default_emitters he).symm
    · rfl

/-- Alike texts whose units and literals do not vary are the same. -/
theorem Sections.eq {v : Variation} (hwidth : v.first = v.second)
    (hsame : ∀ s t, v.Texts s t → s = t) {s t : String} (h : v.Sections s t) : s = t := by
  obtain ⟨n, stencil, -, hleft, hright⟩ := h
  rw [← String.toList_inj, ← hleft, ← hright, chars_eq hsame fun _ => hwidth]

end Variation

namespace Generator

/-- With a new name for a built-in type, a workspace that uses it gives what it gives with
    the built-in name and without the new one: the same script, or the same error, in which
    the new name may stand for the built-in one. -/
theorem generate_alias {width : Nat} {user builtin : String}
    (hnew : user ∉ Catalog.default.map (·.type))
    (hbuiltin : builtin ∈ Catalog.default.map (·.type)) :
    ∃ g g' : Generator, (Builder.default.indentWidth width).build = .ok g ∧
      ((Builder.default.indentWidth width).withMapping user builtin).build = .ok g' ∧
      ∀ w u : Workspace, w.Retypes user builtin u →
        g.generate w = (g'.generate u).mapError (GenerateError.mapType (unalias user builtin)) := by
  change builtin ∈ (builtins.map (·.spec)).map (·.type) at hbuiltin
  rw [List.map_map] at hbuiltin
  obtain ⟨e, he, rfl⟩ := List.mem_map.mp hbuiltin
  rw [← Builder.indentWidth_max]
  refine ⟨_, _, Builder.build_default _, Builder.build_withMapping he hnew, fun w u hwu => ?_⟩
  let v : Variation := ⟨max width 1, max width 1, Nat.le_max_right .., Nat.le_max_right ..,
    unalias user e.spec.type, Eq, fun _ => rfl⟩
  have hblocks : List.Forall₂ (Block.Along v.Counterparts) w.blocks u.blocks :=
    hwu.imp fun b c hbc => hbc.mono fun b c hlocal =>
      ⟨hlocal.id, hlocal.type_eq, hlocal.enabled, fun slot => .inl (hlocal.fields slot)⟩
  have hgenerators := v.generators_alias he hnew rfl rfl (Builder.build_default _)
    (Builder.build_withMapping he hnew)
  refine ((Variation.agree_generate hgenerators hblocks).mono fun _ _ hscripts => ?_).eq_mapError
  exact hscripts.eq rfl fun _ _ heq => heq

/-- A text under another name is a literal as well. Where it stands as a statement, the
    error has the one name or the other. -/
theorem generate_alias_memo :
    ∃ g' : Generator,
      ((Builder.default.indentWidth 4).withMapping "memo" "text").build = .ok g' ∧
      g'.generate ⟨[⟨"b1", "memo", true, [("TEXT", .text "a")], [], none⟩]⟩ = .ok "\"a\"\n" ∧
      (g'.generate ⟨[⟨"b1", "variables_set", true, [], [],
          some ⟨"b2", "memo", true, [], [], none⟩⟩]⟩).mapError
          (GenerateError.mapType (unalias "memo" "text")) =
        .error (.notAStatementBlock "b2" "text") := by
  obtain ⟨g, g', hg, hg', hall⟩ := @generate_alias 4 "memo" "text" (by decide) (by decide)
  rw [Builder.build_default] at hg
  cases hg
  refine ⟨g', hg', ?_, ?_⟩
  · have hscript := hall ⟨[⟨"b1", "text", true, [("TEXT", .text "a")], [], none⟩]⟩
      ⟨[⟨"b1", "memo", true, [("TEXT", .text "a")], [], none⟩]⟩
      (.cons (.intro ⟨rfl, by decide, .inr ⟨rfl, rfl⟩, rfl, fun _ => rfl⟩ (fun _ => .none) .none)
        .nil)
    generalize g'.generate _ = result at hscript ⊢
    cases result with
    | ok script => exact hscript.symm
    | error e => cases hscript
  · refine (hall ⟨[⟨"b1", "variables_set", true, [], [],
      some ⟨"b2", "text", true, [], [], none⟩⟩]⟩ _ ?_).symm
    refine .cons (.intro ⟨rfl, by decide, .inl rfl, rfl, fun _ => rfl⟩ (fun _ => .none)
      (.some ?_)) .nil
    exact .intro ⟨rfl, by decide, .inr ⟨rfl, rfl⟩, rfl, fun _ => rfl⟩ (fun _ => .none) .none

end Generator

end PollScript
