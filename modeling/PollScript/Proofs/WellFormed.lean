import Mathlib.Data.List.Sort
import Mathlib.Data.Set.Card
import PollScript.Proofs.Numerals
import PollScript.Proofs.Registration

/-!
# Which block types are well-formed

A block type is well-formed by four conditions. Its label refers to the numbers from one up to
the number of slots and to no others, its addressable slots have distinct names, its dropdowns
have options, and the bounds of its number slots are not crossed. The check goes through a label
character by character and through the slots with the names that it has seen. It accepts exactly
the well-formed types, and of several faults it reports the first.

Results:

* `Placeholder.mem_numbers`: the scan of a label finds the numbers that it refers to.
* `placeholders_eq_iff`, `ncard_references`: the numbers that are found, as a set.
* `slotFault?_eq_none_iff_sound`, `slotFault?_eq_some`: which lists of slots pass, and the fault
  of the first slot that does not.
* `validate_exact`: what is accepted, what is reported otherwise, and that a slot's name finds
  the slot in a type that is accepted.
-/

namespace PollScript

/-! ## Numbers in a label -/

namespace Placeholder

/-- A text begins with a number: with a run of digits, as long as can be, that spells it. -/
def BeginsWith (cs : List Char) (n : Nat) : Prop :=
  ∃ digits after, cs = digits ++ after ∧ isDigits digits = true ∧
    (∀ c, after.head? = some c → c.isDigit = false) ∧ Nat.ofDigitChars 10 digits 0 = n

/-- A label refers to a number that stands directly behind a percent sign. -/
def Refers (label : List Char) (n : Nat) : Prop :=
  ∃ before rest, label = before ++ '%' :: rest ∧ BeginsWith rest n

theorem leadingNumber?_eq_some {cs : List Char} {n : Nat} :
    leadingNumber? cs = some n ↔ n < limit ∧ BeginsWith cs n := by
  constructor
  · intro h
    unfold leadingNumber? at h
    split at h
    · cases h
    · next hne =>
      dsimp only at h
      split at h
      · next hlt =>
        cases h
        refine ⟨hlt, _, cs.dropWhile Char.isDigit, List.takeWhile_append_dropWhile.symm,
          isDigits_iff.mpr ⟨hne, List.all_eq_true.mp List.all_takeWhile⟩, fun c hc => ?_, rfl⟩
        have hfirst := List.head?_dropWhile_not Char.isDigit cs
        rw [hc] at hfirst
        simpa using hfirst
      · cases h
  · rintro ⟨hlt, digits, after, rfl, hdigits, hafter, rfl⟩
    unfold leadingNumber?
    rw [(takeWhile_digits hdigits after hafter).1]
    cases digits with
    | nil => cases hdigits
    | cons d ds => exact if_pos hlt

theorem refers_cons {c : Char} {rest : List Char} {n : Nat} :
    Refers (c :: rest) n ↔ (c = '%' ∧ BeginsWith rest n) ∨ Refers rest n := by
  constructor
  · rintro ⟨before, behind, hlabel, hbehind⟩
    cases before with
    | nil =>
      obtain ⟨rfl, rfl⟩ := List.cons.inj hlabel
      exact .inl ⟨rfl, hbehind⟩
    | cons b before =>
      obtain ⟨rfl, rfl⟩ := List.cons.inj hlabel
      exact .inr ⟨before, behind, rfl, hbehind⟩
  · rintro (⟨rfl, hbehind⟩ | ⟨before, behind, rfl, hbehind⟩)
    · exact ⟨[], rest, rfl, hbehind⟩
    · exact ⟨c :: before, behind, rfl, hbehind⟩

/-- The scan of a label finds the numbers that the label refers to, as far as they are below
    the limit. -/
theorem mem_numbers {label : List Char} {n : Nat} :
    n ∈ numbers label ↔ n < limit ∧ Refers label n := by
  induction label with
  | nil => simp [numbers, Refers]
  | cons c rest ih =>
    rw [numbers, List.mem_append, ih, refers_cons, and_or_left]
    refine or_congr_left ?_
    by_cases hc : c = '%'
    · simp [hc, leadingNumber?_eq_some]
    · simp [hc]

theorem pairwise_insertDistinct (n : Nat) {ns : List Nat} (h : ns.Pairwise (· < ·)) :
    (insertDistinct n ns).Pairwise (· < ·) := by
  induction ns with
  | nil => exact List.pairwise_singleton _ _
  | cons m rest ih =>
    obtain ⟨hm, hrest⟩ := List.pairwise_cons.mp h
    unfold insertDistinct
    split
    · next hlt =>
      refine List.pairwise_cons.mpr ⟨fun k hk => ?_, h⟩
      rcases List.mem_cons.mp hk with rfl | hk
      · exact hlt
      · exact hlt.trans (hm k hk)
    · split
      · exact h
      · refine List.pairwise_cons.mpr ⟨fun k hk => ?_, ih hrest⟩
        rcases (mem_insertDistinct k n rest).mp hk with rfl | hk
        · omega
        · exact hm k hk

theorem pairwise_distinct (ns : List Nat) : (distinct ns).Pairwise (· < ·) := by
  induction ns with
  | nil => exact List.Pairwise.nil
  | cons n rest ih => exact pairwise_insertDistinct n ih

end Placeholder

namespace BlockSpec

/-- The numbers that the label refers to, as far as they fit 64 bits. -/
def references (spec : BlockSpec) : Set Nat :=
  {n | n < 2 ^ 64 ∧ Placeholder.Refers spec.message.toList n}

theorem mem_placeholders {spec : BlockSpec} {n : Nat} :
    n ∈ spec.placeholders ↔ n ∈ spec.references := by
  rw [placeholders, Placeholder.mem_distinct, Placeholder.mem_numbers]
  rfl

/-- The placeholders are as expected if the label refers to the numbers of the slots. -/
theorem placeholders_eq_iff {spec : BlockSpec} :
    spec.placeholders = spec.expectedPlaceholders ↔
      spec.references = Set.Icc 1 spec.slots.length := by
  have hexpected : ∀ n, n ∈ spec.expectedPlaceholders ↔ n ∈ Set.Icc 1 spec.slots.length := by
    intro n
    rw [expectedPlaceholders, List.mem_range'_1, Set.mem_Icc]
    omega
  constructor
  · intro h
    ext n
    rw [← mem_placeholders, h, hexpected]
  · intro h
    refine List.Pairwise.eq_of_mem_iff (Placeholder.pairwise_distinct _)
      List.pairwise_lt_range' fun n => ?_
    exact mem_placeholders.trans (by rw [h, ← hexpected])

theorem ncard_references (spec : BlockSpec) :
    spec.references.ncard = spec.placeholders.length := by
  have hset : spec.references = (spec.placeholders.toFinset : Set Nat) := by
    ext n
    rw [← mem_placeholders, List.coe_toFinset, Set.mem_ofPred_eq]
  have hnodup : spec.placeholders.Nodup := (Placeholder.pairwise_distinct _).imp Nat.ne_of_lt
  rw [hset, Set.ncard_coe_finset, List.toFinset_card_of_nodup hnodup]

end BlockSpec

/-! ## Faults of slots -/

/-- The fault of a slot on its own. -/
inductive Slot.Fault (type : String) (slot : Slot) : RegistryError → Prop
  | empty (h : slot.kind = .dropdown []) : Fault type slot (.emptyDropdown type slot.name)
  | crossed {default least greatest : Float}
      (h : slot.kind = .number default (some least) (some greatest)) (lt : greatest < least) :
      Fault type slot (.invalidBounds type slot.name)

theorem Slot.fault?_eq_some {type : String} {slot : Slot} {e : RegistryError} :
    slot.fault? type = some e ↔ slot.Fault type e := by
  obtain ⟨name, kind⟩ := slot
  constructor
  · intro h
    unfold Slot.fault? at h
    split at h
    · next hkind =>
      cases h
      exact .empty hkind
    · next hkind =>
      split at h
      · next hlt =>
        cases h
        exact .crossed hkind hlt
      · cases h
    · cases h
  · rintro (⟨hkind⟩ | ⟨hkind, hlt⟩)
    · obtain rfl : kind = _ := hkind
      rfl
    · obtain rfl : kind = _ := hkind
      exact if_pos hlt

namespace BlockSpec

/-- Slots have distinct names, and none has a fault of its own. -/
structure SoundSlots (slots : List Slot) : Prop where
  named : (slots.map (·.name)).Nodup
  offering : ∀ slot ∈ slots, slot.kind ≠ .dropdown []
  bounded : ∀ slot ∈ slots, ∀ default least greatest,
    slot.kind = .number default (some least) (some greatest) → ¬greatest < least

theorem soundSlots_iff {type : String} {slots : List Slot} :
    SoundSlots slots ↔ (slots.map (·.name)).Nodup ∧ ∀ slot ∈ slots, slot.fault? type = none := by
  constructor
  · rintro ⟨hnamed, hoffering, hbounded⟩
    refine ⟨hnamed, fun slot hslot => Option.eq_none_iff_forall_ne_some.mpr fun e he => ?_⟩
    rcases Slot.fault?_eq_some.mp he with hkind | ⟨hkind, hlt⟩
    · exact hoffering slot hslot hkind
    · exact hbounded slot hslot _ _ _ hkind hlt
  · rintro ⟨hnamed, hfault⟩
    have hnone : ∀ slot ∈ slots, ∀ e, ¬slot.Fault type e := by
      intro slot hslot e he
      rw [← Slot.fault?_eq_some, hfault slot hslot] at he
      cases he
    exact ⟨hnamed, fun slot hslot hkind => hnone slot hslot _ (.empty hkind),
      fun slot hslot _ _ _ hkind hlt => hnone slot hslot _ (.crossed hkind hlt)⟩

theorem slotFault?_append (type : String) (seen : List String) (front back : List Slot) :
    slotFault? type seen (front ++ back) =
      (slotFault? type seen front).or
        (slotFault? type ((front.map (·.name)).reverse ++ seen) back) := by
  induction front generalizing seen with
  | nil => rfl
  | cons slot rest ih =>
    rw [List.cons_append, slotFault?_cons, slotFault?_cons]
    by_cases hseen : slot.name ∈ seen
    · rw [if_pos hseen, if_pos hseen, Option.some_or]
    · rw [if_neg hseen, if_neg hseen, ih, Option.or_assoc]
      simp

/-- The fault of a list of slots is that of its first slot with a fault. That its name is taken
    counts before a fault of its own. -/
theorem slotFault?_eq_some {type : String} {slots : List Slot} {e : RegistryError} :
    slotFault? type [] slots = some e ↔ ∃ before slot after, slots = before ++ slot :: after ∧
      slotFault? type [] before = none ∧
        ((slot.name ∈ before.map (·.name) ∧ e = .duplicateSlot type slot.name) ∨
          (slot.name ∉ before.map (·.name) ∧ slot.Fault type e)) := by
  constructor
  · intro h
    induction slots using List.reverseRecOn with
    | nil => cases h
    | append_singleton slots slot ih =>
      rw [slotFault?_append] at h
      cases hslots : slotFault? type [] slots with
      | some other =>
        rw [hslots, Option.some_or] at h
        obtain ⟨before, first, after, rfl, hfirst⟩ := ih (hslots.trans h)
        exact ⟨before, first, after ++ [slot], by simp, hfirst⟩
      | none =>
        refine ⟨slots, slot, [], rfl, hslots, ?_⟩
        rw [hslots, Option.none_or, slotFault?_cons, List.append_nil] at h
        by_cases htaken : slot.name ∈ slots.map (·.name)
        · rw [if_pos (List.mem_reverse.mpr htaken)] at h
          cases h
          exact .inl ⟨htaken, rfl⟩
        · rw [if_neg (mt List.mem_reverse.mp htaken), slotFault?, Option.or_none] at h
          exact .inr ⟨htaken, Slot.fault?_eq_some.mp h⟩
  · rintro ⟨before, slot, after, rfl, hbefore, hslot⟩
    rw [slotFault?_append, hbefore, Option.none_or, slotFault?_cons, List.append_nil]
    rcases hslot with ⟨htaken, rfl⟩ | ⟨hnew, hfault⟩
    · exact if_pos (List.mem_reverse.mpr htaken)
    · rw [if_neg (mt List.mem_reverse.mp hnew), Slot.fault?_eq_some.mpr hfault, Option.some_or]

/-- Slots pass if they are sound. -/
theorem slotFault?_eq_none_iff_sound {type : String} {slots : List Slot} :
    slotFault? type [] slots = none ↔ SoundSlots slots := by
  rw [slotFault?_eq_none_iff, @soundSlots_iff type]
  simp

/-! ## Well-formed types -/

/-- The four conditions on a block type. -/
structure WellFormed (spec : BlockSpec) : Prop where
  /-- The label refers to the numbers of the slots, counted from one. -/
  labelled : spec.references = Set.Icc 1 spec.slots.length
  named : (spec.addressableSlots.map (·.name)).Nodup
  offering : ∀ slot ∈ spec.slots, slot.kind ≠ .dropdown []
  bounded : ∀ slot ∈ spec.slots, ∀ default least greatest,
    slot.kind = .number default (some least) (some greatest) → ¬greatest < least

/-- The first fault of a block type. The label comes before the slots, and the slots come in
    their order. -/
inductive Fault (spec : BlockSpec) : RegistryError → Prop
  | mislabelled (h : spec.references ≠ Set.Icc 1 spec.slots.length) :
      Fault spec (.placeholderMismatch spec.type spec.references.ncard spec.slots.length)
  /-- A slot has the name of one before it, whatever else is wrong with it. -/
  | repeated {before after : List Slot} {slot : Slot}
      (labelled : spec.references = Set.Icc 1 spec.slots.length)
      (turn : spec.addressableSlots = before ++ slot :: after) (sound : SoundSlots before)
      (taken : slot.name ∈ before.map (·.name)) :
      Fault spec (.duplicateSlot spec.type slot.name)
  /-- A slot with a new name has a fault of its own. -/
  | faulty {before after : List Slot} {slot : Slot} {e : RegistryError}
      (labelled : spec.references = Set.Icc 1 spec.slots.length)
      (turn : spec.addressableSlots = before ++ slot :: after) (sound : SoundSlots before)
      (new : slot.name ∉ before.map (·.name)) (fault : slot.Fault spec.type e) :
      Fault spec e

theorem addressable_of_kind {slot : Slot} {kind : SlotKind} (hkind : slot.kind = kind)
    (hne : kind ≠ .rowBreak) : slot.addressable = true :=
  bne_iff_ne.mpr (hkind ▸ hne)

theorem wellFormed_iff {spec : BlockSpec} :
    spec.WellFormed ↔ spec.references = Set.Icc 1 spec.slots.length ∧
      SoundSlots spec.addressableSlots := by
  constructor
  · rintro ⟨hlabelled, hnamed, hoffering, hbounded⟩
    exact ⟨hlabelled, hnamed, fun slot hslot => hoffering slot (List.mem_filter.mp hslot).1,
      fun slot hslot => hbounded slot (List.mem_filter.mp hslot).1⟩
  · rintro ⟨hlabelled, hnamed, hoffering, hbounded⟩
    refine ⟨hlabelled, hnamed, fun slot hslot hkind => ?_,
      fun slot hslot default least greatest hkind => ?_⟩
    · have haddressable := addressable_of_kind hkind (by simp)
      exact hoffering slot (List.mem_filter.mpr ⟨hslot, haddressable⟩) hkind
    · have haddressable := addressable_of_kind hkind (by simp)
      exact hbounded slot (List.mem_filter.mpr ⟨hslot, haddressable⟩) _ _ _ hkind

/-- A type is accepted if it is well-formed. -/
theorem validate_eq_ok {spec : BlockSpec} : spec.validate = .ok () ↔ spec.WellFormed := by
  rw [validate_eq_ok_iff, placeholders_eq_iff, slotFault?_eq_none_iff_sound, wellFormed_iff]

/-- Otherwise its first fault is reported. -/
theorem validate_eq_error {spec : BlockSpec} {e : RegistryError} :
    spec.validate = .error e ↔ spec.Fault e := by
  by_cases hlabel : spec.placeholders = spec.expectedPlaceholders
  · have hlabelled := placeholders_eq_iff.mp hlabel
    have hslots : spec.validate = .error e ↔
        slotFault? spec.type [] spec.addressableSlots = some e := by
      rw [validate, if_pos hlabel]
      cases slotFault? spec.type [] spec.addressableSlots <;> simp
    rw [hslots, slotFault?_eq_some]
    constructor
    · rintro ⟨before, slot, after, hturn, hbefore, ⟨htaken, rfl⟩ | ⟨hnew, hfault⟩⟩
      · exact .repeated hlabelled hturn (slotFault?_eq_none_iff_sound.mp hbefore) htaken
      · exact .faulty hlabelled hturn (slotFault?_eq_none_iff_sound.mp hbefore) hnew hfault
    · rintro (hne | ⟨-, hturn, hsound, htaken⟩ | ⟨-, hturn, hsound, hnew, hfault⟩)
      · exact absurd hlabelled hne
      · exact ⟨_, _, _, hturn, slotFault?_eq_none_iff_sound.mpr hsound, .inl ⟨htaken, rfl⟩⟩
      · exact ⟨_, _, _, hturn, slotFault?_eq_none_iff_sound.mpr hsound, .inr ⟨hnew, hfault⟩⟩
  · have hmislabelled := mt placeholders_eq_iff.mpr hlabel
    rw [validate, if_neg hlabel, ← ncard_references]
    constructor
    · intro h
      cases h
      exact .mislabelled hmislabelled
    · rintro (_ | ⟨hlabelled, -⟩ | ⟨hlabelled, -⟩)
      · rfl
      · exact absurd hlabelled hmislabelled
      · exact absurd hlabelled hmislabelled

/-- In a well-formed type the name of a slot finds the slot in its place. -/
theorem slotIndex?_of_getElem? {spec : BlockSpec} (wellFormed : spec.WellFormed) {i : Nat}
    {slot : Slot} (hslot : spec.slots[i]? = some slot) (addressable : slot.addressable = true) :
    spec.slotIndex? slot.name = some i := by
  obtain ⟨hi, hget⟩ := List.getElem?_eq_some_iff.mp hslot
  have hpairwise : spec.slots.Pairwise fun a b =>
      a.addressable = true → b.addressable = true → a.name ≠ b.name :=
    List.pairwise_filter.mp (List.pairwise_map.mp wellFormed.named)
  rw [slotIndex?, List.findIdx?_eq_some_iff_getElem]
  refine ⟨hi, by simp [hget, addressable], fun j hj => ?_⟩
  intro hfound
  rw [Bool.and_eq_true, beq_iff_eq] at hfound
  exact List.pairwise_iff_getElem.mp hpairwise j i (by omega) hi hj hfound.1
    (hget ▸ addressable) (hget ▸ hfound.2)

/-- A block type is accepted exactly if it is well-formed, and otherwise its first fault is
    reported. In a type that is accepted the name of every slot that has one finds this slot. -/
theorem validate_exact (spec : BlockSpec) :
    (spec.validate = .ok () ↔ spec.WellFormed) ∧
      (∀ e, spec.validate = .error e ↔ spec.Fault e) ∧
      (spec.validate = .ok () → ∀ i slot, spec.slots[i]? = some slot →
        slot.addressable = true →
          spec.slotIndex? slot.name = some i ∧ spec.slot? slot.name = some slot) := by
  refine ⟨validate_eq_ok, fun e => validate_eq_error, fun valid i slot hslot haddressable => ?_⟩
  have hmem : slot ∈ spec.addressableSlots :=
    List.mem_filter.mpr ⟨List.mem_of_getElem? hslot, haddressable⟩
  exact ⟨slotIndex?_of_getElem? (validate_eq_ok.mp valid) hslot haddressable,
    slot?_of_mem valid hmem⟩

/-- A type whose label has doubled signs, leading zeros and a sign at its end, and whose text
    field shares the empty name with the row break before it. -/
def paddedLabel : BlockSpec where
  type := "padded"
  message := "%%01 %3 %002 %"
  slots := [⟨"", .rowBreak⟩, ⟨"", .text "t"⟩, ⟨"LEVEL", .number 0 (some 1) (some 1)⟩]
  output := none
  followsOthers := true
  othersFollow := true
  colour := 0
  tooltip := ""
  helpUrl := ""

/-- Row breaks have no name to be found by, not even the empty one. -/
theorem validate_padded_label : paddedLabel.validate = .ok () ∧
    paddedLabel.slotIndex? "" = some 1 ∧ paddedLabel.slot? "" = some ⟨"", .text "t"⟩ := by
  have valid : paddedLabel.validate = .ok () := by decide +kernel
  exact ⟨valid, (validate_exact paddedLabel).2.2 valid 1 ⟨"", .text "t"⟩ rfl rfl⟩

end BlockSpec

end PollScript
