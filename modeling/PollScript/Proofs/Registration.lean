import PollScript.Proofs.Contract
import PollScript.Registry

/-!
# Registered block types

What a registry guarantees once a batch is taken. The types of the batch stand
behind those before it, each of them is well-formed, and no two types share a
name. So a name finds the one type that it was registered with, and in a
well-formed type a slot's name finds that slot.

Results:

* `slotFault?_eq_none_iff`: which lists of slots have no fault.
* `slot?_of_mem`: in a well-formed type every slot is found by its name.
* `checkBatch_append`: a batch may be checked part by part.
* `checkBatch_eq_ok`, `checkBatch_eq_error`: which batches pass, and why others do not.
* `register_eq_ok`, `register_of_valid`: what a successful registration leaves,
  and when it succeeds.
* `get?_of_mem`: every registered type is found by its name.
-/

namespace PollScript

/-- Where no two keys are equal, looking for the key of an element finds the
    element. -/
theorem find?_of_nodup {α : Type} {key : α → String} {items : List α}
    (nodup : (items.map key).Nodup) {a : α} (ha : a ∈ items) {p : α → Bool}
    (hp : ∀ b, p b = true ↔ key b = key a) : items.find? p = some a := by
  induction items with
  | nil => cases ha
  | cons b rest ih =>
    rw [List.map_cons, List.nodup_cons] at nodup
    rcases List.mem_cons.mp ha with rfl | ha
    · rw [List.find?_cons_of_pos ((hp a).mpr rfl)]
    · have hne : key b ≠ key a := fun heq => nodup.1 (heq ▸ List.mem_map_of_mem ha)
      rw [List.find?_cons_of_neg (fun h => hne ((hp b).mp h))]
      exact ih nodup.2 ha

namespace BlockSpec

/-! ## Slots -/

theorem slotFault?_cons (type : String) (seen : List String) (slot : Slot) (rest : List Slot) :
    slotFault? type seen (slot :: rest) =
      if slot.name ∈ seen then some (.duplicateSlot type slot.name)
      else (slot.fault? type).or (slotFault? type (slot.name :: seen) rest) := by
  rw [slotFault?]
  simp only [List.contains_iff_mem]
  cases slot.fault? type <;> rfl

/-- Slots have no fault if their names are new and distinct and no slot has a fault of its
    own. -/
theorem slotFault?_eq_none_iff {type : String} {slots : List Slot} {seen : List String} :
    slotFault? type seen slots = none ↔ (∀ slot ∈ slots, slot.name ∉ seen) ∧
      (slots.map (·.name)).Nodup ∧ ∀ slot ∈ slots, slot.fault? type = none := by
  induction slots generalizing seen with
  | nil => simp [slotFault?]
  | cons slot rest ih =>
    rw [slotFault?_cons]
    by_cases hseen : slot.name ∈ seen
    · simp [hseen]
    · rw [if_neg hseen, Option.or_eq_none_iff, ih, List.forall_mem_cons, List.forall_mem_cons,
        List.map_cons, List.nodup_cons]
      constructor
      · rintro ⟨hfault, hnew, hnodup, hfaults⟩
        refine ⟨⟨hseen, fun other hother hmem => ?_⟩, ⟨fun hmem => ?_, hnodup⟩, hfault, hfaults⟩
        · exact hnew other hother (List.mem_cons_of_mem _ hmem)
        · obtain ⟨other, hother, heq⟩ := List.mem_map.mp hmem
          exact hnew other hother (heq ▸ List.mem_cons_self)
      · rintro ⟨⟨-, hnew⟩, ⟨hfresh, hnodup⟩, hfault, hfaults⟩
        refine ⟨hfault, fun other hother hmem => ?_, hnodup, hfaults⟩
        rcases List.mem_cons.mp hmem with heq | hmem
        · exact hfresh (heq ▸ List.mem_map_of_mem hother)
        · exact hnew other hother hmem

/-- A type is well-formed when its placeholders are those of its slots and no
    slot has a fault. -/
theorem validate_eq_ok_iff {spec : BlockSpec} :
    spec.validate = .ok () ↔ spec.placeholders = spec.expectedPlaceholders ∧
      slotFault? spec.type [] spec.addressableSlots = none := by
  unfold validate
  split
  · next heq =>
    cases hfault : slotFault? spec.type [] spec.addressableSlots with
    | none => simp [heq]
    | some fault => simp
  · next hne => simp [hne]

/-- In a well-formed type every slot that blocks can refer to is found by its
    name. -/
theorem slot?_of_mem {spec : BlockSpec} (valid : spec.validate = .ok ()) {slot : Slot}
    (h : slot ∈ spec.addressableSlots) : spec.slot? slot.name = some slot := by
  have hnodup := (slotFault?_eq_none_iff.mp (validate_eq_ok_iff.mp valid).2).2.1
  have hfind : spec.slot? slot.name = spec.addressableSlots.find? (·.name == slot.name) := by
    rw [slot?, addressableSlots, List.find?_filter]
    congr 1
    funext other
    by_cases hname : other.name = slot.name <;> simp [hname]
  rw [hfind]
  exact find?_of_nodup hnodup h fun other => beq_iff_eq

end BlockSpec

namespace Registry

/-! ## Registration -/

theorem contains_iff {r : Registry} {type : String} :
    r.contains type = true ↔ type ∈ r.types := by
  simp [contains, get?, types, List.find?_isSome]

theorem checkSpec_eq (r : Registry) (before : List String) (spec : BlockSpec) :
    r.checkSpec before spec = spec.validate >>= fun _ =>
      if spec.type ∈ r.types ∨ spec.type ∈ before then .error (.duplicateBlockType spec.type)
      else .ok () := by
  have hknown : (r.contains spec.type || before.contains spec.type) = true ↔
      spec.type ∈ r.types ∨ spec.type ∈ before := by
    rw [Bool.or_eq_true, contains_iff, List.contains_iff_mem]
  unfold checkSpec
  congr 1
  funext _
  by_cases h : spec.type ∈ r.types ∨ spec.type ∈ before
  · rw [if_pos (hknown.mpr h), if_pos h]
    rfl
  · rw [if_neg (mt hknown.mp h), if_neg h]
    rfl

/-- A type passes if it is well-formed and its name is new. -/
theorem checkSpec_eq_ok {r : Registry} {before : List String} {spec : BlockSpec} :
    r.checkSpec before spec = .ok () ↔
      spec.validate = .ok () ∧ spec.type ∉ r.types ∧ spec.type ∉ before := by
  rw [checkSpec_eq]
  cases spec.validate with
  | error e => simp [bind, Except.bind]
  | ok =>
    rw [← not_or]
    by_cases h : spec.type ∈ r.types ∨ spec.type ∈ before
    · simp [bind, Except.bind, h]
    · simp [bind, Except.bind, h]

/-- A type is refused for a fault of its own, or else because its name is taken. -/
theorem checkSpec_eq_error {r : Registry} {before : List String} {spec : BlockSpec}
    {e : RegistryError} :
    r.checkSpec before spec = .error e ↔
      spec.validate = .error e ∨ (spec.validate = .ok () ∧
        (spec.type ∈ r.types ∨ spec.type ∈ before) ∧ e = .duplicateBlockType spec.type) := by
  rw [checkSpec_eq]
  cases spec.validate with
  | error other => simp [bind, Except.bind]
  | ok =>
    by_cases h : spec.type ∈ r.types ∨ spec.type ∈ before
    · simp [bind, Except.bind, h, eq_comm]
    · simp [bind, Except.bind, h]

theorem checkBatch_cons (r : Registry) (before : List String) (spec : BlockSpec)
    (rest : List BlockSpec) :
    r.checkBatch before (spec :: rest) =
      r.checkSpec before spec >>= fun _ => r.checkBatch (spec.type :: before) rest :=
  rfl

/-- A batch that is checked in two parts is checked in one. -/
theorem checkBatch_append (r : Registry) (before : List String) (front back : List BlockSpec) :
    r.checkBatch before (front ++ back) =
      r.checkBatch before front >>= fun _ =>
        r.checkBatch ((front.map (·.type)).reverse ++ before) back := by
  induction front generalizing before with
  | nil => rfl
  | cons spec rest ih =>
    rw [List.cons_append, checkBatch_cons, checkBatch_cons, ih]
    cases r.checkSpec before spec with
    | error e => rfl
    | ok => simp [bind, Except.bind]

/-- A batch passes if each of its types is well-formed and has a name that neither the
    registry nor the batch before it has. -/
theorem checkBatch_eq_ok {r : Registry} {before : List String} {batch : List BlockSpec} :
    r.checkBatch before batch = .ok () ↔
      (∀ spec ∈ batch, spec.validate = .ok () ∧ spec.type ∉ r.types ∧ spec.type ∉ before) ∧
        (batch.map (·.type)).Nodup := by
  induction batch generalizing before with
  | nil => simp [checkBatch]
  | cons spec rest ih =>
    have hcons : r.checkBatch before (spec :: rest) = .ok () ↔
        r.checkSpec before spec = .ok () ∧ r.checkBatch (spec.type :: before) rest = .ok () := by
      rw [checkBatch_cons, bind_eq_ok]
      exact ⟨fun ⟨_, hspec, hrest⟩ => ⟨hspec, hrest⟩, fun ⟨hspec, hrest⟩ => ⟨(), hspec, hrest⟩⟩
    rw [hcons, checkSpec_eq_ok, ih, List.map_cons, List.nodup_cons]
    constructor
    · rintro ⟨hspec, hrest, hnodup⟩
      refine ⟨?_, fun hmem => ?_, hnodup⟩
      · intro other hother
        rcases List.mem_cons.mp hother with rfl | hother
        · exact hspec
        · obtain ⟨hvalid, hnew, hbefore⟩ := hrest other hother
          exact ⟨hvalid, hnew, fun hmem => hbefore (List.mem_cons_of_mem _ hmem)⟩
      · obtain ⟨other, hother, heq⟩ := List.mem_map.mp hmem
        exact (hrest other hother).2.2 (heq ▸ List.mem_cons_self)
    · rintro ⟨hall, hnew, hnodup⟩
      refine ⟨hall spec List.mem_cons_self, fun other hother => ?_, hnodup⟩
      obtain ⟨hvalid, hknown, hbefore⟩ := hall other (List.mem_cons_of_mem _ hother)
      refine ⟨hvalid, hknown, fun hmem => ?_⟩
      rcases List.mem_cons.mp hmem with heq | hmem
      · exact hnew (heq ▸ List.mem_map_of_mem hother)
      · exact hbefore hmem

/-- A batch is refused for the first of its types that is. -/
theorem checkBatch_eq_error {r : Registry} {before : List String} {batch : List BlockSpec}
    {e : RegistryError} :
    r.checkBatch before batch = .error e ↔ ∃ front spec back, batch = front ++ spec :: back ∧
      r.checkBatch before front = .ok () ∧
        r.checkSpec ((front.map (·.type)).reverse ++ before) spec = .error e := by
  constructor
  · intro h
    induction batch generalizing before with
    | nil => cases h
    | cons spec rest ih =>
      rw [checkBatch_cons] at h
      cases hspec : r.checkSpec before spec with
      | error other =>
        rw [hspec] at h
        cases h
        exact ⟨[], spec, rest, rfl, rfl, hspec⟩
      | ok =>
        rw [hspec] at h
        obtain ⟨front, other, back, rfl, hfront, hother⟩ := ih h
        refine ⟨spec :: front, other, back, rfl, ?_, by simpa using hother⟩
        rw [checkBatch_cons, hspec]
        exact hfront
  · rintro ⟨front, spec, back, rfl, hfront, hspec⟩
    rw [checkBatch_append, hfront]
    show r.checkBatch _ (spec :: back) = _
    rw [checkBatch_cons, hspec]
    rfl

/-- A batch that passes the check is put behind the types of the registry. -/
theorem register_eq (r : Registry) (batch : List BlockSpec) :
    r.register batch = (r.checkBatch [] batch).map fun _ => ⟨r.specs ++ batch⟩ := by
  unfold register
  rw [attempt_eq]
  cases r.checkBatch [] batch <;> rfl

/-- A batch that is taken stands behind the types before it, all of it is
    well-formed, and the names stay distinct. -/
theorem register_eq_ok {r r' : Registry} {batch : List BlockSpec}
    (h : r.register batch = .ok r') :
    r'.specs = r.specs ++ batch ∧ (∀ spec ∈ batch, spec.validate = .ok ()) ∧
      (r.types.Nodup → r'.types.Nodup) := by
  rw [register_eq] at h
  cases hcheck : r.checkBatch [] batch with
  | error e => rw [hcheck] at h; cases h
  | ok =>
    rw [hcheck] at h
    cases h
    obtain ⟨hall, hnodup⟩ := checkBatch_eq_ok.mp hcheck
    refine ⟨rfl, fun spec hspec => (hall spec hspec).1, fun hr => ?_⟩
    show ((r.specs ++ batch).map (·.type)).Nodup
    rw [List.map_append, List.nodup_append]
    refine ⟨hr, hnodup, fun a ha b hb heq => ?_⟩
    obtain ⟨spec, hspec, rfl⟩ := List.mem_map.mp hb
    exact (hall spec hspec).2.1 (heq ▸ ha)

/-- A batch of well-formed types with new and distinct names is taken. -/
theorem register_of_valid {r : Registry} {batch : List BlockSpec}
    (valid : ∀ spec ∈ batch, spec.validate = .ok ())
    (nodup : ((r.specs ++ batch).map (·.type)).Nodup) :
    r.register batch = .ok ⟨r.specs ++ batch⟩ := by
  rw [List.map_append, List.nodup_append] at nodup
  have hcheck : r.checkBatch [] batch = .ok () := by
    refine checkBatch_eq_ok.mpr
      ⟨fun spec hspec => ⟨valid spec hspec, fun hmem => ?_, ?_⟩, nodup.2.1⟩
    · exact nodup.2.2 _ hmem _ (List.mem_map_of_mem hspec) rfl
    · exact List.not_mem_nil
  rw [register_eq, hcheck]
  rfl

/-- A registered type is found by its name. -/
theorem get?_of_mem {r : Registry} (nodup : r.types.Nodup) {spec : BlockSpec}
    (h : spec ∈ r.specs) : r.get? spec.type = some spec := by
  exact find?_of_nodup nodup h fun other => decide_eq_true_iff

end Registry

end PollScript
