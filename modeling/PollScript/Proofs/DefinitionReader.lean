import PollScript.Catalog.Definition
import PollScript.Proofs.Dictionaries

/-!
# Reading definitions back

The definition of a block type tells several things apart by what is there and in which form:
a check may be absent, one tag, or a list of tags, an output may be absent, `null`, or a tag,
and a bound and a connector are there or not. The reader below goes the other way. It gives
every block type back from its definition, if row breaks have no name, which definitions leave
out, and if the numbers of number fields are finite, because others become `null`. So two such
block types with the same definition are one.

Results:

* `BlockSpec.ofDefinition?`: the reader.
* `member?_ofMembers`: a member is found as it is written.
* `Slot.ofDefinition?_definition`: a slot is read back.
* `BlockSpec.definition_lossless`: a block type is read back, and no other one has its
  definition.
-/

namespace PollScript

open Json (Value)

/-! ## Reading -/

namespace Json.Value

/-- The items of an array. -/
def asArray? : Value → Option (List Value)
  | .array items => some items
  | _ => none

/-- The number of a value that is not written as a whole number. -/
def asFloat? : Value → Option Float
  | .float x => some x
  | _ => none

/-- A member that has to be there. -/
def required? {α : Type} (read : Value → Option α) (v : Value) (key : String) : Option α :=
  (v.member? key).bind read

/-- A member that may be absent. -/
def optional? {α : Type} (read : Value → Option α) (v : Value) (key : String) :
    Option (Option α) :=
  match v.member? key with
  | none => some none
  | some member => (read member).map some

end Json.Value

/-- Reads the check of a socket. -/
def checkOf? : Value → Option (List String)
  | .text tag => some [tag]
  | .array tags => tags.mapM Value.asText?
  | _ => none

/-- Reads an option of a dropdown. -/
def optionOf? : Value → Option (String × String)
  | .array [.text label, .text value] => some (label, value)
  | _ => none

/-- Reads what a slot is for, by the type that its definition gives. -/
def SlotKind.ofDefinition? (v : Value) : (type : String) → Option SlotKind
  | "input_dummy" => some .rowBreak
  | "input_value" => (v.optional? checkOf? "check").map .value
  | "field_dropdown" => do
    let items ← v.required? Value.asArray? "options"
    return .dropdown (← items.mapM optionOf?)
  | "field_input" => (v.required? Value.asText? "text").map .text
  | "field_number" => do
    let default ← v.required? Value.asFloat? "value"
    let least ← v.optional? Value.asFloat? "min"
    let greatest ← v.optional? Value.asFloat? "max"
    return .number default least greatest
  | "input_statement" => some .body
  | _ => none

/-- Reads a slot. Without a name it gets the empty one. -/
def Slot.ofDefinition? (v : Value) : Option Slot := do
  let kind ← SlotKind.ofDefinition? v (← v.required? Value.asText? "type")
  let name ← v.optional? Value.asText? "name"
  return ⟨name.getD "", kind⟩

/-- Reads the kind of value that a block gives. -/
def Output.ofDefinition? : Value → Option Output
  | .null => some .any
  | .text name => some (.tag name)
  | _ => none

/-- Reads a hue. -/
def colourOf? : Value → Option UInt16
  | .int n => some (.ofNat n.toNat)
  | _ => none

/-- Reads a block type. -/
def BlockSpec.ofDefinition? (v : Value) : Option BlockSpec := do
  let type ← v.required? Value.asText? "type"
  let message ← v.required? Value.asText? "message0"
  let slots ← (← v.required? Value.asArray? "args0").mapM Slot.ofDefinition?
  let output ← v.optional? Output.ofDefinition? "output"
  let colour ← v.required? colourOf? "colour"
  let tooltip ← v.required? Value.asText? "tooltip"
  let helpUrl ← v.required? Value.asText? "helpUrl"
  return { type, message, slots, output, colour, tooltip, helpUrl
           followsOthers := (v.member? "previousStatement").isSome
           othersFollow := (v.member? "nextStatement").isSome }

/-! ## Look-ups -/

theorem get?_optionalMember (key other : String) (value : Option Value) :
    Dictionary.get? (optionalMember key value) other = if other = key then value else none := by
  cases value with
  | none => exact (ite_self none).symm
  | some value => rw [optionalMember, Dictionary.get?_cons, Dictionary.get?_nil]

theorem keys_append (front back : List (String × Value)) :
    Dictionary.keys (front ++ back) = Dictionary.keys front ++ Dictionary.keys back :=
  List.map_append

theorem keys_optionalMember (key : String) (value : Option Value) :
    (Dictionary.keys (optionalMember key value)).Sublist [key] := by
  cases value with
  | none => exact List.nil_sublist _
  | some value => exact List.Sublist.refl _

/-- No member of a slot's definition is written twice. -/
theorem Slot.nodup_keys (slot : Slot) : (Dictionary.keys slot.definitionMembers).Nodup := by
  obtain ⟨name, kind⟩ := slot
  cases kind with
  | value check =>
    have hkeys : (["type", "name"] ++ ["check"]).Nodup := by decide
    refine hkeys.sublist ?_
    simp only [definitionMembers, keys_append]
    exact (List.Sublist.refl _).append (keys_optionalMember ..)
  | number default least greatest =>
    have hkeys : (["type", "name", "value"] ++ ["min"] ++ ["max"]).Nodup := by decide
    refine hkeys.sublist ?_
    simp only [definitionMembers, keys_append]
    exact ((List.Sublist.refl _).append (keys_optionalMember ..)).append (keys_optionalMember ..)
  | _ => simp [definitionMembers, Dictionary.keys]

/-- No member of a block type's definition is written twice. -/
theorem BlockSpec.nodup_keys (spec : BlockSpec) :
    (Dictionary.keys spec.definitionMembers).Nodup := by
  have hkeys : (["type", "message0", "args0"] ++ ["output"] ++ ["previousStatement"] ++
      ["nextStatement"] ++ ["colour", "tooltip", "helpUrl"]).Nodup := by decide
  refine hkeys.sublist ?_
  simp only [definitionMembers, keys_append]
  exact ((((List.Sublist.refl _).append (keys_optionalMember ..)).append
    (keys_optionalMember ..)).append (keys_optionalMember ..)).append (List.Sublist.refl _)

section

variable {members : List (String × Value)} (nodup : (Dictionary.keys members).Nodup)
  {α : Type} (read : Value → Option α) (key : String)

include nodup

/-- Where no member is written twice, one is found as it is written. -/
theorem member?_ofMembers :
    (Value.ofMembers members).member? key = Dictionary.get? members key :=
  (Dictionary.get?_sorted members key).trans (Dictionary.get?_reverse nodup key)

theorem required?_ofMembers {v : Value} {a : α} (h : read v = some a)
    (hmember : Dictionary.get? members key = some v) :
    (Value.ofMembers members).required? read key = some a := by
  rw [Value.required?, member?_ofMembers nodup, hmember, Option.bind_some, h]

theorem optional?_ofMembers (write : α → Value) (o : Option α)
    (h : ∀ a ∈ o, read (write a) = some a) (hmember : Dictionary.get? members key = o.map write) :
    (Value.ofMembers members).optional? read key = some o := by
  rw [Value.optional?, member?_ofMembers nodup, hmember]
  cases o with
  | none => rfl
  | some a => exact congrArg (Option.map some) (h a rfl)

end

/-! ## Parts -/

theorem mapM_map_eq_some {α : Type} (read : Value → Option α) (write : α → Value)
    {items : List α} (h : ∀ a ∈ items, read (write a) = some a) :
    (items.map write).mapM read = some items := by
  induction items with
  | nil => rfl
  | cons a rest ih =>
    have hrest := ih fun b hb => h b (List.mem_cons_of_mem _ hb)
    rw [List.map_cons, List.mapM_cons, h a List.mem_cons_self, hrest]
    rfl

theorem checkOf?_checkDefinition (tags : List String) :
    checkOf? (checkDefinition tags) = some tags := by
  have hmany : (tags.map Value.text).mapM Value.asText? = some tags :=
    mapM_map_eq_some Value.asText? Value.text fun _ _ => rfl
  match tags with
  | [] => rfl
  | [tag] => rfl
  | _ :: _ :: _ => exact hmany

theorem Output.ofDefinition?_definition (output : Output) :
    ofDefinition? output.definition = some output := by
  cases output <;> rfl

theorem colourOf?_int (colour : UInt16) : colourOf? (.int colour.toNat) = some colour := by
  show some (UInt16.ofNat (colour.toNat : Int).toNat) = some colour
  rw [Int.toNat_natCast, UInt16.ofNat_toNat]

theorem asFloat?_number {x : Float} (h : x.isFinite = true) :
    Value.asFloat? (.number x) = some x := by
  rw [Value.number_of_finite h]
  rfl

/-! ## Slots -/

/-- A slot that its definition keeps whole. A row break has the empty name, and the numbers of a
    number slot are finite. -/
def Slot.Exportable (slot : Slot) : Prop :=
  match slot.kind with
  | .rowBreak => slot.name = ""
  | .number default least greatest =>
    default.isFinite = true ∧ (∀ bound ∈ least, bound.isFinite = true) ∧
      ∀ bound ∈ greatest, bound.isFinite = true
  | _ => True

instance : DecidablePred Slot.Exportable := fun ⟨name, kind⟩ =>
  match kind with
  | .rowBreak => inferInstanceAs (Decidable (name = ""))
  | .number .. => inferInstanceAs (Decidable (_ ∧ _ ∧ _))
  | .value _ | .dropdown _ | .text _ | .body => .isTrue trivial

/-- What a slot is for is told by the type in its definition. -/
theorem SlotKind.ofDefinition?_definition {slot : Slot} (h : slot.Exportable) :
    ∃ type, slot.definition.required? Value.asText? "type" = some type ∧
      SlotKind.ofDefinition? slot.definition type = some slot.kind := by
  have nodup := slot.nodup_keys
  obtain ⟨name, kind⟩ := slot
  cases kind with
  | rowBreak => exact ⟨"input_dummy", required?_ofMembers nodup _ _ rfl rfl, rfl⟩
  | value check =>
    have hcheck := optional?_ofMembers nodup checkOf? "check" checkDefinition check
      (fun tags _ => checkOf?_checkDefinition tags) (by
        simp [Slot.definitionMembers, Dictionary.get?_cons, get?_optionalMember])
    refine ⟨"input_value", required?_ofMembers nodup _ _ rfl rfl, ?_⟩
    rw [ofDefinition?, Slot.definition, hcheck]
    rfl
  | dropdown options =>
    have hitems := required?_ofMembers nodup Value.asArray? "options" rfl rfl
    have hoptions : (options.map _).mapM optionOf? = some options :=
      mapM_map_eq_some optionOf? (fun option => .array [.text option.1, .text option.2])
        fun _ _ => rfl
    refine ⟨"field_dropdown", required?_ofMembers nodup _ _ rfl rfl, ?_⟩
    rw [ofDefinition?, Slot.definition, hitems, Option.bind_eq_bind, Option.bind_some, hoptions]
    rfl
  | text default =>
    have htext := required?_ofMembers nodup Value.asText? "text" rfl rfl
    refine ⟨"field_input", required?_ofMembers nodup _ _ rfl rfl, ?_⟩
    rw [ofDefinition?, Slot.definition, htext]
    rfl
  | number default least greatest =>
    obtain ⟨hdefault, hleast, hgreatest⟩ := h
    have hvalue := required?_ofMembers nodup Value.asFloat? "value" (asFloat?_number hdefault) rfl
    have hmin := optional?_ofMembers nodup Value.asFloat? "min" Value.number least
      (fun x hx => asFloat?_number (hleast x hx)) (by
        simp [Slot.definitionMembers, Dictionary.get?_append, Dictionary.get?_cons,
          get?_optionalMember])
    have hmax := optional?_ofMembers nodup Value.asFloat? "max" Value.number greatest
      (fun x hx => asFloat?_number (hgreatest x hx)) (by
        simp [Slot.definitionMembers, Dictionary.get?_append, Dictionary.get?_cons,
          get?_optionalMember])
    refine ⟨"field_number", required?_ofMembers nodup _ _ rfl rfl, ?_⟩
    rw [ofDefinition?, Slot.definition, hvalue, hmin, hmax]
    rfl
  | body => exact ⟨"input_statement", required?_ofMembers nodup _ _ rfl rfl, rfl⟩

/-- All slots but row breaks have a name in their definition. -/
theorem Slot.optional?_name (slot : Slot) :
    slot.definition.optional? Value.asText? "name" =
      some (if slot.kind = .rowBreak then none else some slot.name) := by
  refine optional?_ofMembers slot.nodup_keys _ _ Value.text _ (fun _ _ => rfl) ?_
  obtain ⟨name, kind⟩ := slot
  cases kind <;> rfl

/-- A slot is read back from its definition. -/
theorem Slot.ofDefinition?_definition {slot : Slot} (h : slot.Exportable) :
    ofDefinition? slot.definition = some slot := by
  obtain ⟨type, htype, hkind⟩ := SlotKind.ofDefinition?_definition h
  have hname : (if slot.kind = .rowBreak then none else some slot.name).getD "" = slot.name := by
    obtain ⟨name, kind⟩ := slot
    cases kind with
    | rowBreak => exact h.symm
    | _ => rfl
  simp [ofDefinition?, htype, hkind, slot.optional?_name, hname]

/-! ## Block types -/

namespace BlockSpec

/-- A block type that its definition keeps whole. -/
def Exportable (spec : BlockSpec) : Prop :=
  ∀ slot ∈ spec.slots, slot.Exportable

instance : DecidablePred Exportable := fun spec =>
  inferInstanceAs (Decidable (∀ slot ∈ spec.slots, slot.Exportable))

/-- The members that are always there stand before and behind the output and the connectors. -/
theorem get?_definitionMembers (spec : BlockSpec) (key : String) :
    Dictionary.get? spec.definitionMembers key =
      ((((Dictionary.get? [("type", .text spec.type), ("message0", .text spec.message),
        ("args0", .array (spec.slots.map Slot.definition))] key).or
      (if key = "output" then spec.output.map Output.definition else none)).or
      (if key = "previousStatement" then if spec.followsOthers then some .null else none
        else none)).or
      (if key = "nextStatement" then if spec.othersFollow then some .null else none
        else none)).or
      (Dictionary.get? [("colour", .int spec.colour.toNat), ("tooltip", .text spec.tooltip),
        ("helpUrl", .text spec.helpUrl)] key) := by
  simp only [definitionMembers, Dictionary.get?_append, get?_optionalMember]

/-- The connectors are there if the block type has them. -/
theorem isSome_connectors (spec : BlockSpec) :
    (spec.definition.member? "previousStatement").isSome = spec.followsOthers ∧
      (spec.definition.member? "nextStatement").isSome = spec.othersFollow := by
  have hmember (key : String) := (member?_ofMembers spec.nodup_keys key).trans
    (spec.get?_definitionMembers key)
  rw [definition, hmember, hmember]
  obtain ⟨_, _, _, output, followsOthers, othersFollow, _, _, _⟩ := spec
  constructor
  · cases followsOthers <;> rfl
  · cases othersFollow <;> rfl

/-- A block type is read back from its definition. -/
theorem ofDefinition?_definition {spec : BlockSpec} (h : spec.Exportable) :
    ofDefinition? spec.definition = some spec := by
  have nodup := spec.nodup_keys
  have hget := spec.get?_definitionMembers
  have htext (key : String) {text : String}
      (hkey : Dictionary.get? spec.definitionMembers key = some (.text text)) :
      spec.definition.required? Value.asText? key = some text :=
    required?_ofMembers nodup _ _ rfl hkey
  have htype := htext "type" rfl
  have hmessage := htext "message0" rfl
  have hargs : spec.definition.required? Value.asArray? "args0" =
      some (spec.slots.map Slot.definition) := required?_ofMembers nodup _ _ rfl rfl
  have hslots : (spec.slots.map Slot.definition).mapM Slot.ofDefinition? = some spec.slots :=
    mapM_map_eq_some _ _ fun slot hslot => Slot.ofDefinition?_definition (h slot hslot)
  have houtput : spec.definition.optional? Output.ofDefinition? "output" = some spec.output := by
    refine optional?_ofMembers nodup _ _ Output.definition _
      (fun output _ => output.ofDefinition?_definition) ?_
    rw [hget]
    cases spec.output <;> rfl
  have hcolour : spec.definition.required? colourOf? "colour" = some spec.colour :=
    required?_ofMembers nodup _ _ (colourOf?_int spec.colour) ((hget "colour").trans rfl)
  have htooltip := htext "tooltip" ((hget "tooltip").trans rfl)
  have hhelpUrl := htext "helpUrl" ((hget "helpUrl").trans rfl)
  obtain ⟨hfollows, hfollow⟩ := spec.isSome_connectors
  simp only [ofDefinition?, htype, hmessage, hargs, hslots, houtput, hcolour, htooltip, hhelpUrl,
    hfollows, hfollow, Option.bind_eq_bind, Option.bind_some]
  rfl

/-- A block type that its definition keeps whole is read back from it, and no other such type
    has the same definition. -/
theorem definition_lossless {spec : BlockSpec} (h : spec.Exportable) :
    ofDefinition? spec.definition = some spec ∧
      ∀ other : BlockSpec, other.Exportable → other.definition = spec.definition →
        other = spec := by
  refine ⟨ofDefinition?_definition h, fun other hother hsame => ?_⟩
  have hread := ofDefinition?_definition hother
  rw [hsame, ofDefinition?_definition h] at hread
  exact (Option.some.inj hread).symm

/-- A type whose sockets take everything, nothing, one tag and two tags, and whose output has
    the tag `any`. -/
def assortment : BlockSpec where
  type := "assortment"
  message := "%1%2%3%4%5%6%7"
  slots := [⟨"ALL", .value none⟩, ⟨"NONE", .value (some [])⟩, ⟨"ONE", .value (some ["any"])⟩,
    ⟨"TWO", .value (some ["any", ""])⟩, ⟨"", .rowBreak⟩,
    ⟨"CHOICE", .dropdown [("Same", "x"), ("Same", "x")]⟩, ⟨"LEVEL", .number (-0.0) none (some 1)⟩]
  output := some (.tag "any")
  followsOthers := false
  othersFollow := true
  colour := 65535
  tooltip := ""
  helpUrl := ""

/-- The tag `any` is told apart from an output that fits everywhere, and a check without tags
    from none. -/
theorem definition_lossless_assortment :
    assortment.Exportable ∧ ofDefinition? assortment.definition = some assortment ∧
      ({ assortment with output := some .any } : BlockSpec).definition ≠ assortment.definition := by
  have exportable : assortment.Exportable := by decide +kernel
  have hread := definition_lossless exportable
  refine ⟨exportable, hread.1, fun hsame => ?_⟩
  have hother := hread.2 { assortment with output := some .any } (by decide +kernel) hsame
  cases congrArg BlockSpec.output hother

end BlockSpec

end PollScript
