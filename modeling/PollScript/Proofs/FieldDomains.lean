import PollScript.Proofs.Bounds
import PollScript.Proofs.Consistency
import PollScript.Proofs.Fields
import PollScript.Proofs.WellFormed

/-!
# Field values stay in their domains

A slot declares what its field may hold: one of some options, or a number between bounds. A
registry takes only types whose dropdowns have options and whose bounds are not crossed, and a
generator is built over such a registry. So whatever a block holds, what its fields give is in
the domain that the type declares, if they give something.

Results:

* `Builder.sound_of_build`: the registry of a generator that is built is sound.
* `slotKind_of_build`: the slots of a block are those of its type.
* `fields_of_build`: what dropdowns and number fields give.
-/

namespace PollScript

/-- The block with a value in a field. -/
def Block.withField (name : String) (value : FieldValue) (b : Block) : Block :=
  { b with fields := Dictionary.put name value b.fields }

theorem Block.field?_withField (name : String) (value : FieldValue) (b : Block) :
    (b.withField name value).field? name = some value :=
  (Dictionary.get?_put name name value b.fields).trans (if_pos rfl)

/-- The registry of a generator that is built is sound. -/
theorem Builder.sound_of_build {builder : Builder} {g : Generator}
    (built : builder.build = .ok g) : g.registry.Sound := by
  obtain ⟨b, -, hregistered, -⟩ := parts_of_build built
  obtain ⟨hspecs, hvalid, hnodup⟩ := Registry.register_eq_ok hregistered
  refine ⟨hnodup List.nodup_nil, fun spec hspec => hvalid spec ?_⟩
  rwa [hspecs] at hspec

namespace Generator

/-- A dropdown gives one of its options, and the first one if nothing is chosen. -/
structure GivesOption (g : Generator) (b : Block) (slot : String)
    (options : List (String × String)) : Prop where
  offered : ∀ text, g.fieldText b slot = .ok text → text ∈ options.map (·.2)
  /-- There is a first option, which is given if nothing is chosen. -/
  first : ∃ option, options.head? = some option ∧
    (b.field? slot = none → g.fieldText b slot = .ok option.2)

/-- A number field gives a number from its domain. -/
structure GivesNumber (g : Generator) (b : Block) (slot : String) (default : Float)
    (least greatest : Option Float) (x : Float) : Prop where
  finite : x.isFinite = true
  within : Within least greatest x
  /-- It is what the field holds, or the default, or else the bound that this violates. -/
  origin : ∃ value, readNumber b slot default = .ok value ∧
    (b.field? slot = none → value = default) ∧ Clamped least greatest value x
  /-- A field that holds the number gives it again. -/
  again : g.fieldNumber (b.withField slot (.number x)) slot = .ok x

variable {builder : Builder} {g : Generator} {b : Block} {spec : BlockSpec}

/-- In a generator that is built a block has the slots of its type, each under its name. -/
theorem slotKind_of_build (built : builder.build = .ok g)
    (htype : g.registry.get? b.type = some spec) {slot : Slot} (hslot : slot ∈ spec.slots)
    (addressable : slot.addressable = true) : g.slotKind b slot.name = .ok slot.kind := by
  have hvalid := (Builder.sound_of_build built).valid spec (Registry.mem_of_get? htype).1
  exact slotKind_of_spec htype
    (BlockSpec.slot?_of_mem hvalid (List.mem_filter.mpr ⟨hslot, addressable⟩))

theorem slotKind_withField (g : Generator) (b : Block) (name slot : String)
    (value : FieldValue) : g.slotKind (b.withField name value) slot = g.slotKind b slot :=
  rfl

theorem givesOption_of_kind {slot : String} {options : List (String × String)}
    (hkind : g.slotKind b slot = .ok (.dropdown options)) (hne : options ≠ []) :
    g.GivesOption b slot options := by
  obtain ⟨option, rest, rfl⟩ := List.exists_cons_of_ne_nil hne
  have htext : ∀ text, g.fieldText b slot = .ok text ↔
      text = b.textOr slot option.2 ∧ text ∈ (option :: rest).map (·.2) := by
    intro text
    rw [fieldText_of_dropdown hkind, chosen_eq_ok]
  refine ⟨fun text h => ((htext text).mp h).2, option, rfl, fun hunset => ?_⟩
  refine (htext option.2).mpr ⟨?_, List.mem_cons_self⟩
  rw [Block.textOr, hunset]
  rfl

theorem givesNumber_of_kind {slot : String} {default x : Float} {least greatest : Option Float}
    (hkind : g.slotKind b slot = .ok (.number default least greatest))
    (hleast : ∀ bound ∈ least, bound.isFinite = true)
    (hgreatest : ∀ bound ∈ greatest, bound.isFinite = true)
    (uncrossed : ∀ low ∈ least, ∀ high ∈ greatest, ¬high < low)
    (h : g.fieldNumber b slot = .ok x) : g.GivesNumber b slot default least greatest x := by
  obtain ⟨value, hvalue, hfinite, rfl⟩ := (fieldNumber_eq_ok_iff hkind).mp h
  have hclamped : (clamp value least greatest).isFinite = true :=
    clamp_of hfinite hleast hgreatest
  have hnumber := Numbers.isNaN_of_isFinite hfinite
  replace hleast := fun bound hbound => Numbers.isNaN_of_isFinite (hleast bound hbound)
  replace hgreatest := fun bound hbound => Numbers.isNaN_of_isFinite (hgreatest bound hbound)
  refine ⟨hclamped, within_clamp hleast hgreatest hnumber uncrossed,
    ⟨value, hvalue, fun hunset => ?_, clamped_clamp hleast hgreatest hnumber uncrossed⟩, ?_⟩
  · rw [readNumber, hunset] at hvalue
    exact (Except.ok.inj hvalue).symm
  · refine (fieldNumber_eq_ok_iff ((slotKind_withField g b ..).trans hkind)).mpr
      ⟨_, ?_, hclamped, clamp_clamp hleast hgreatest⟩
    rw [readNumber, Block.field?_withField]

/-- Whatever a block holds, its dropdowns give one of their options, and its number fields give
    numbers between their bounds. -/
theorem fields_of_build (built : builder.build = .ok g)
    (htype : g.registry.get? b.type = some spec) {slot : Slot} (hslot : slot ∈ spec.slots) :
    (∀ options, slot.kind = .dropdown options → g.GivesOption b slot.name options) ∧
      ∀ default least greatest, slot.kind = .number default least greatest →
        (∀ bound ∈ least, bound.isFinite = true) →
        (∀ bound ∈ greatest, bound.isFinite = true) →
        ∀ x, g.fieldNumber b slot.name = .ok x →
          g.GivesNumber b slot.name default least greatest x := by
  have hvalid := (Builder.sound_of_build built).valid spec (Registry.mem_of_get? htype).1
  have wellFormed := BlockSpec.validate_eq_ok.mp hvalid
  constructor
  · intro options hkind
    have hfound := slotKind_of_build built htype hslot
      (BlockSpec.addressable_of_kind hkind (by simp))
    rw [hkind] at hfound
    exact givesOption_of_kind hfound fun hnil =>
      wellFormed.offering slot hslot (hnil ▸ hkind)
  · intro default least greatest hkind hleast hgreatest x hx
    have hfound := slotKind_of_build built htype hslot
      (BlockSpec.addressable_of_kind hkind (by simp))
    rw [hkind] at hfound
    refine givesNumber_of_kind hfound hleast hgreatest (fun low hlow high hhigh => ?_) hx
    refine wellFormed.bounded slot hslot default low high ?_
    rw [hkind, Option.mem_def.mp hlow, Option.mem_def.mp hhigh]

/-- A type with a choice, and with a number between zero and one that is five by default. -/
def dose : BlockSpec :=
  Catalog.valueBlock "dose" "%2 %1"
    [⟨"UNIT", .dropdown [("Drops", "drop"), ("Spoons", "spoon")]⟩,
      ⟨"AMOUNT", .number 5 (some 0) (some 1)⟩] .any 0 ""

/-- The type with an emitter. -/
def doseBuilder : Builder :=
  (Builder.empty.withSpec dose).withEmitter "dose" fun _ _ => pure (.statement "")

/-- A dose of so much. -/
def doseOf (fields : List (String × FieldValue)) : Block :=
  ⟨"d", "dose", true, fields, [], none⟩

/-- Without a choice and a number the first unit is given and the greatest number, which the
    default exceeds, and a text is raised to the least number. -/
theorem fields_of_dose : ∃ g, doseBuilder.build = .ok g ∧
    g.fieldText (doseOf []) "UNIT" = .ok "drop" ∧
    g.GivesNumber (doseOf []) "AMOUNT" 5 (some 0) (some 1) 1 ∧
    g.GivesNumber (doseOf [("AMOUNT", .text " -3 ")]) "AMOUNT" 5 (some 0) (some 1) 0 := by
  have built : doseBuilder.build =
      .ok ⟨⟨[dose]⟩, doseBuilder.emitters, doseBuilder.indent⟩ := rfl
  have htype (fields : List (String × FieldValue)) :
      Registry.get? ⟨[dose]⟩ (doseOf fields).type = some dose := rfl
  have hunit := (fields_of_build built (htype []) (.head _)).1 _ rfl
  obtain ⟨_, ⟨⟩, hfirst⟩ := hunit.first
  have hfinite : ∀ x : Float, x.isFinite = true → ∀ bound ∈ some x, bound.isFinite = true := by
    intro x hx bound hbound
    cases hbound
    exact hx
  have hamount (fields : List (String × FieldValue)) :=
    (fields_of_build built (htype fields) (.tail _ (.head _))).2 5 (some 0) (some 1) rfl
      (hfinite 0 rfl) (hfinite 1 rfl)
  exact ⟨_, built, hfirst rfl, hamount [] 1 (by decide +kernel),
    hamount [("AMOUNT", .text " -3 ")] 0 (by decide +kernel)⟩

end Generator

end PollScript
