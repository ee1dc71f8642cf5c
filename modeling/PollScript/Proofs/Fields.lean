import PollScript.Proofs.Contract
import PollScript.Proofs.Standard

/-!
# Fields of blocks

What a field gives follows from the slot of the block's type alone. A text field
gives its text or the default. A choice is one of the options, and the first one
unless something is chosen. A number is finite and between its bounds. This is
said of a slot of whatever type first, and then of the slots of built-in types.

Results:

* `chosen_eq_ok`, `fieldNumber_eq_ok_iff`: what a choice and a number field give, over any type.
* `fieldText_eq_text`, `fieldText_eq_choice`: what a text field and a choice give.
* `fieldNumber_eq_ok`: what a number field gives.
-/

namespace PollScript

open Script

/-- The text of a field, or else the default. -/
def Block.textOr (b : Block) (slot default : String) : String :=
  ((b.field? slot).map FieldValue.display).getD default

namespace Generator

variable {g : Generator} {b : Block} {e : Builtin}

/-- A slot that is found in the type of a block is found in the block. -/
theorem slotKind_of_spec {spec : BlockSpec} {name : String} {slot : Slot}
    (htype : g.registry.get? b.type = some spec) (hslot : spec.slot? name = some slot) :
    g.slotKind b name = .ok slot.kind := by
  simp only [slotKind, specOf, htype, bind, Except.bind, hslot]
  rfl

theorem slotKind_of_slot? {name : String} {slot : Slot}
    (htype : g.registry.get? b.type = some (e.named b.type))
    (hslot : e.spec.slot? name = some slot) : g.slotKind b name = .ok slot.kind :=
  slotKind_of_spec htype (by rwa [Builtin.named_slot?])

/-- Over the default catalog every slot of a block's type is found by its
    name. -/
theorem slotKind_of_mem (he : e ∈ builtins)
    (htype : g.registry.get? b.type = some (e.named b.type)) {slot : Slot}
    (hslot : slot ∈ e.spec.addressableSlots) : g.slotKind b slot.name = .ok slot.kind :=
  slotKind_of_slot? htype (BlockSpec.slot?_of_mem (validate_default e.spec (mem_catalog he)) hslot)

/-! ## Fields by the kind of their slot -/

variable {slot t : String}

theorem fieldText_of_text {default : String}
    (hkind : g.slotKind b slot = .ok (.text default)) :
    g.fieldText b slot = .ok (b.textOr slot default) := by
  unfold fieldText
  rw [hkind]
  rfl

theorem fieldText_of_dropdown {options : List (String × String)}
    (hkind : g.slotKind b slot = .ok (.dropdown options)) :
    g.fieldText b slot = chosen b slot options := by
  unfold fieldText
  rw [hkind]
  rfl

/-- The choice between options is the first one unless something is chosen, and what is chosen
    has to be one of them. -/
theorem chosen_eq_ok {first : String × String} {rest : List (String × String)} :
    chosen b slot (first :: rest) = .ok t ↔
      t = b.textOr slot first.2 ∧ t ∈ (first :: rest).map (·.2) := by
  unfold chosen Block.textOr
  cases b.field? slot with
  | none =>
    refine ⟨fun h => ?_, fun h => congrArg Except.ok h.1.symm⟩
    cases h
    exact ⟨rfl, List.mem_cons_self⟩
  | some value =>
    have hany : (first :: rest).any (·.2 == value.display) = true ↔
        value.display ∈ (first :: rest).map (·.2) := by
      simp only [List.any_eq_true, List.mem_map, beq_iff_eq]
    constructor
    · intro h
      dsimp only at h
      split at h
      · next hchosen =>
        cases h
        exact ⟨rfl, hany.mp hchosen⟩
      · cases h
    · rintro ⟨rfl, hmem⟩
      exact if_pos (hany.mpr hmem)

theorem fieldNumber_of_number {default : Float} {least greatest : Option Float}
    (hkind : g.slotKind b slot = .ok (.number default least greatest)) :
    g.fieldNumber b slot = (readNumber b slot default >>= fun value =>
      if value.isFinite then .ok (clamp value least greatest)
      else .error (.invalidFieldValue b.id slot
        ("'" ++ Decimal.display value ++ "' is not a finite number"))) := by
  unfold fieldNumber
  rw [hkind]
  rfl

/-- A number field gives the number that it holds, between its bounds, if the number that it
    holds is finite. -/
theorem fieldNumber_eq_ok_iff {default x : Float} {least greatest : Option Float}
    (hkind : g.slotKind b slot = .ok (.number default least greatest)) :
    g.fieldNumber b slot = .ok x ↔
      ∃ value, readNumber b slot default = .ok value ∧ value.isFinite = true ∧
        clamp value least greatest = x := by
  rw [fieldNumber_of_number hkind]
  refine bind_eq_ok.trans (exists_congr fun value => and_congr_right fun _ => ?_)
  by_cases hfinite : value.isFinite = true
  · rw [if_pos hfinite, Except.ok.injEq, and_iff_right hfinite]
  · simp [hfinite]

/-! ## Fields of built-in types -/

/-- A text field gives its text, or else the default. -/
theorem fieldText_eq_text {default : String}
    (htype : g.registry.get? b.type = some (e.named b.type))
    (hslot : e.spec.slot? slot = some ⟨slot, .text default⟩)
    (h : g.fieldText b slot = .ok t) : t = b.textOr slot default := by
  rw [fieldText_of_text (slotKind_of_slot? htype hslot)] at h
  exact (Except.ok.inj h).symm

/-- The text of a choice is what is chosen, or else the first option. It is one of
    the options. -/
theorem fieldText_eq_choice {first : String × String} {rest : List (String × String)}
    (htype : g.registry.get? b.type = some (e.named b.type))
    (hslot : e.spec.slot? slot = some ⟨slot, .dropdown (first :: rest)⟩)
    (h : g.fieldText b slot = .ok t) :
    t = b.textOr slot first.2 ∧ t ∈ (first :: rest).map (·.2) := by
  rw [fieldText_of_dropdown (slotKind_of_slot? htype hslot)] at h
  exact chosen_eq_ok.mp h

/-- A number field gives the number that it holds, between its bounds. The number
    that it holds is finite. -/
theorem fieldNumber_eq_ok {default x : Float} {least greatest : Option Float}
    (htype : g.registry.get? b.type = some (e.named b.type))
    (hslot : e.spec.slot? slot = some ⟨slot, .number default least greatest⟩)
    (h : g.fieldNumber b slot = .ok x) :
    ∃ value, readNumber b slot default = .ok value ∧ value.isFinite = true ∧
      x = clamp value least greatest := by
  obtain ⟨value, hvalue, hfinite, hclamp⟩ :=
    (fieldNumber_eq_ok_iff (slotKind_of_slot? htype hslot)).mp h
  exact ⟨value, hvalue, hfinite, hclamp.symm⟩

end Generator

end PollScript
