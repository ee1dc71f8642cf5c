import PollScript.Proofs.Fields
import PollScript.Proofs.Visits

/-!
# Workspaces that compile

Whether a workspace compiles is decided by its block types alone. A walk over
the block graph looks at the block types and at nothing else: it checks the
links of each chain, the fields, and what is plugged into the slots of a type,
slot by slot in the order of the catalog. It ends at the first violation.

Results:

* `walkBlock_eq`: a walked block is made of the walked blocks in its inputs and
  after it.
* `follows`: emitting a block or a chain fails where the walk does.
* `generate_iff_walk`: over the default catalog, a pass fails with the first
  violation of the walk, and succeeds if there is none.
-/

namespace PollScript

open Script

/-! ## The walk -/

/-- A block with what the walk finds in it. -/
structure Walked where
  block : Block
  emission : Except GenerateError Unit
  /-- The first violation in the chain that the block begins, which may be
      attached to something before it. -/
  chain : (attached : Bool) → Except GenerateError Unit

namespace Registry

variable (r : Registry)

/-- The type of a block must be registered. -/
def typeOf (b : Block) : Except GenerateError BlockSpec :=
  match r.get? b.type with
  | some spec => .ok spec
  | none => .error (.unknownBlockType b.id b.type)

/-- A block that is plugged into a socket must give a value that the socket
    takes. If it is enabled, the walk goes on in it. -/
def walkValue (b : Block) (slot : String) (check : Option (List String)) (child : Walked) :
    Except GenerateError Unit :=
  if child.block.enabled then do
    match (← r.typeOf child.block).output with
    | none => throw (.notAValueBlock child.block.id child.block.type)
    | some output =>
      if output.fits check then child.emission
      else throw (.incompatibleConnection b.id slot output.label (", ".intercalate (check.getD [])))
  else return ()

/-- A choice must be one of the options. -/
def walkChoice (b : Block) (slot : String) (options : List (String × String))
    (choice : FieldValue) : Except GenerateError Unit :=
  if choice.display ∈ options.map (·.2) then .ok ()
  else .error (.invalidFieldValue b.id slot
    ("'" ++ choice.display ++ "' is not one of [" ++ ", ".intercalate (options.map (·.2)) ++ "]"))

/-- A number must be finite. -/
def walkNumber (b : Block) (slot : String) (x : Float) : Except GenerateError Unit :=
  if x.isFinite then .ok ()
  else .error (.invalidFieldValue b.id slot
    ("'" ++ Decimal.display x ++ "' is not a finite number"))

/-- What is in a slot must be as the kind of the slot demands. -/
def walkSlot (b : Block) (inputs : List (String × Walked)) (slot : Slot) :
    Except GenerateError Unit :=
  match slot.kind with
  | .value check =>
    match Dictionary.get? inputs slot.name with
    | some child => r.walkValue b slot.name check child
    | none => .ok ()
  | .body =>
    match Dictionary.get? inputs slot.name with
    | some first => first.chain true
    | none => .ok ()
  | .dropdown options =>
    match b.field? slot.name with
    | some choice => walkChoice b slot.name options choice
    | none => .ok ()
  | .number .. =>
    match b.field? slot.name with
    | some (.number x) => walkNumber b slot.name x
    | some (.text s) =>
      match Decimal.read? (String.ofList (Text.trim s.toList)) with
      | some x => walkNumber b slot.name x
      | none => .error (.invalidFieldValue b.id slot.name ("'" ++ s ++ "' is not a number"))
    | none => .ok ()
  | .text _ | .rowBreak => .ok ()

/-- In a block, the addressable slots of its type are checked in their order. -/
def walkEmission (b : Block) (inputs : List (String × Walked)) : Except GenerateError Unit := do
  let spec ← r.typeOf b
  spec.addressableSlots.forM (r.walkSlot b inputs)

/-- In a chain, a block of a registered type must be no value, and one that
    follows something must be able to. If it is enabled, the walk goes on in it,
    and then in the block that follows. -/
def walkLink (b : Block) (emission : Except GenerateError Unit) (next : Option Walked)
    (attached : Bool) : Except GenerateError Unit := do
  let spec ← r.typeOf b
  if spec.isValueBlock then throw (.notAStatementBlock b.id b.type)
  if attached && !spec.followsOthers then throw (.noPreviousConnection b.id b.type)
  if b.enabled then emission
  match next with
  | some follower => follower.chain true
  | none => return ()

/-- Walks through a block and all that is connected to it. -/
def walkBlock : Block → Walked :=
  Block.fold fun b inputs next =>
    let emission := r.walkEmission b inputs
    { block := b, emission, chain := r.walkLink b emission next }

/-- At the top level, a value is looked into if it is enabled, and every other
    block begins a chain. -/
def walkTop (top : Walked) : Except GenerateError Unit := do
  let spec ← r.typeOf top.block
  if spec.isValueBlock then
    if top.block.enabled then top.emission
  else top.chain false

/-- Walks through the top-level blocks in their order. -/
def walk (w : Workspace) : Except GenerateError Unit :=
  w.blocks.forM fun b => r.walkTop (r.walkBlock b)

/-- A walked block is made of the walked blocks in its inputs and after it. -/
theorem walkBlock_eq (b : Block) :
    r.walkBlock b =
      { block := b
        emission := r.walkEmission b (Dictionary.mapValues r.walkBlock b.inputs)
        chain := r.walkLink b (r.walkEmission b (Dictionary.mapValues r.walkBlock b.inputs))
          (b.next.map r.walkBlock) } :=
  Block.fold_eq _ b

@[simp] theorem walkBlock_block (b : Block) : (r.walkBlock b).block = b := by
  rw [walkBlock_eq]

theorem walkBlock_emission (b : Block) :
    (r.walkBlock b).emission =
      r.walkEmission b (Dictionary.mapValues r.walkBlock b.inputs) := by
  rw [walkBlock_eq]

theorem walkBlock_chain (b : Block) :
    (r.walkBlock b).chain =
      r.walkLink b (r.walkBlock b).emission (b.next.map r.walkBlock) := by
  rw [walkBlock_eq]

end Registry

/-! ## Computations that settle -/

/-- A sequence with a second part that never fails has the verdict of its first
    part. -/
theorem verdict_bind_ok {ε : Type} (v : Except ε Unit) : (v >>= fun _ => .ok ()) = v := by
  cases v <;> rfl

namespace Generation

variable {α β : Type}

/-- In every pass the computation ends with the same verdict, and if it
    succeeds, its result satisfies `post`. -/
def Settles (x : Generation α) (v : Except GenerateError Unit) (post : α → Prop) : Prop :=
  ∀ pass, verdict (x.run.run pass).1 = v ∧ ∀ a, (x.run.run pass).1 = .ok a → post a

theorem Settles.pure {a : α} {post : α → Prop} (h : post a) :
    Settles (Pure.pure a) (.ok ()) post := by
  intro pass
  refine ⟨rfl, fun b hb => ?_⟩
  cases hb
  exact h

theorem Settles.throw {e : GenerateError} {post : α → Prop} :
    Settles (throw e : Generation α) (.error e) post :=
  fun _ => ⟨rfl, fun _ hb => nomatch hb⟩

theorem Settles.check {result : Except GenerateError α} :
    Settles (check result) (verdict result) fun a => result = .ok a := by
  cases result with
  | ok a => exact .pure rfl
  | error e => exact .throw

theorem Settles.mono {x : Generation α} {v : Except GenerateError Unit} {mid post : α → Prop}
    (hx : Settles x v mid) (h : ∀ a, mid a → post a) : Settles x v post :=
  fun pass => ⟨(hx pass).1, fun a ha => h a ((hx pass).2 a ha)⟩

theorem Settles.bind {x : Generation α} {f : α → Generation β} {v v' : Except GenerateError Unit}
    {mid : α → Prop} {post : β → Prop} (hx : Settles x v mid)
    (hf : ∀ a, mid a → Settles (f a) v' post) :
    Settles (x >>= f) (v >>= fun _ => v') post := by
  intro pass
  obtain ⟨hv, hmid⟩ := hx pass
  rw [run_bind, ← hv]
  cases hres : (x.run.run pass).1 with
  | ok a => exact hf a (hmid a hres) _
  | error e => exact ⟨rfl, fun _ hb => nomatch hb⟩

theorem Settles.mapM {γ : Type} {f : γ → Generation α} {v : γ → Except GenerateError Unit}
    {items : List γ} (h : ∀ item ∈ items, Settles (f item) (v item) fun _ => True) :
    Settles (items.mapM f) (items.forM v) fun _ => True := by
  induction items with
  | nil => exact .pure trivial
  | cons item rest ih =>
    rw [List.mapM_cons]
    show Settles _ (v item >>= fun _ => rest.forM v) _
    refine .bind (h item List.mem_cons_self) fun a _ => ?_
    rw [← verdict_bind_ok (rest.forM v)]
    refine .bind (ih fun i hi => h i (List.mem_cons_of_mem _ hi)) fun results _ => ?_
    exact .pure trivial

end Generation

/-! ## Slots of a built-in type -/

/-- The default of a number slot is finite. -/
def Slot.startsFinite (slot : Slot) : Bool :=
  match slot.kind with
  | .number default _ _ => default.isFinite
  | _ => true

theorem startsFinite_default :
    ∀ spec ∈ Catalog.default, ∀ slot ∈ spec.addressableSlots, slot.startsFinite = true := by
  decide +kernel

namespace Generator

variable {g : Generator} {b : Block} {slot : String}

theorem verdict_fieldText_text {default : String}
    (hkind : g.slotKind b slot = .ok (.text default)) :
    verdict (g.fieldText b slot) = .ok () := by
  rw [fieldText_of_text hkind]
  rfl

theorem verdict_fieldText_dropdown {options : List (String × String)}
    (hkind : g.slotKind b slot = .ok (.dropdown options)) :
    verdict (g.fieldText b slot) =
      match b.field? slot with
      | some choice => Registry.walkChoice b slot options choice
      | none => .ok () := by
  rw [fieldText_of_dropdown hkind, chosen]
  cases b.field? slot with
  | none => rfl
  | some choice =>
    have hany : options.any (·.2 == choice.display) = true ↔
        choice.display ∈ options.map (·.2) := by
      simp [List.any_eq_true]
    dsimp only [Registry.walkChoice]
    by_cases hmem : choice.display ∈ options.map (·.2)
    · rw [if_pos (hany.mpr hmem), if_pos hmem]; rfl
    · rw [if_neg (mt hany.mp hmem), if_neg hmem]; rfl

/-- What a number field is judged by. -/
theorem verdict_fieldNumber {default : Float} {least greatest : Option Float}
    (hkind : g.slotKind b slot = .ok (.number default least greatest))
    (hdefault : default.isFinite = true) :
    verdict (g.fieldNumber b slot) =
      match b.field? slot with
      | some (.number x) => Registry.walkNumber b slot x
      | some (.text s) =>
        match Decimal.read? (String.ofList (Text.trim s.toList)) with
        | some x => Registry.walkNumber b slot x
        | none => .error (.invalidFieldValue b.id slot ("'" ++ s ++ "' is not a number"))
      | none => .ok () := by
  have hfinite : ∀ x : Float, verdict (if x.isFinite then .ok (clamp x least greatest)
      else .error (.invalidFieldValue b.id slot
        ("'" ++ Decimal.display x ++ "' is not a finite number"))) =
      Registry.walkNumber b slot x := by
    intro x
    unfold Registry.walkNumber
    split <;> rfl
  rw [fieldNumber_of_number hkind, readNumber]
  cases b.field? slot with
  | none =>
    show verdict (if default.isFinite then _ else _) = _
    rw [if_pos hdefault]
    rfl
  | some value =>
    cases value with
    | number x => exact hfinite x
    | text s =>
      dsimp only
      cases Decimal.read? (String.ofList (Text.trim s.toList)) with
      | none => rfl
      | some x => exact hfinite x

/-- The generator and the walk judge alike what is plugged into a socket. If
    neither finds a fault, both go on in the block if it is enabled. -/
theorem supplier_cases {check : Option (List String)} (child : Block)
    (hkind : g.slotKind b slot = .ok (.value check)) :
    (∃ e, g.supplier b slot (some (g.resolve child)) = .error e ∧
      g.registry.walkValue b slot check (g.registry.walkBlock child) = .error e) ∨
    (g.supplier b slot (some (g.resolve child)) = .ok none ∧
      g.registry.walkValue b slot check (g.registry.walkBlock child) = .ok ()) ∨
    (g.supplier b slot (some (g.resolve child)) = .ok (some (g.resolve child)) ∧
      (∃ spec, g.registry.typeOf child = .ok spec ∧ spec.isValueBlock = true) ∧
      g.registry.walkValue b slot check (g.registry.walkBlock child) =
        (g.registry.walkBlock child).emission) := by
  have hspec : g.specOf child = g.registry.typeOf child := rfl
  unfold supplier Registry.walkValue
  rw [hkind, Registry.walkBlock_block]
  cases henabled : child.enabled with
  | false =>
    have hfilter : (some (g.resolve child)).filter (·.block.enabled) = none := by
      simp [Option.filter, henabled]
    simp only [hfilter, bind, Except.bind]
    exact .inr (.inl ⟨rfl, rfl⟩)
  | true =>
    have hfilter : (some (g.resolve child)).filter (·.block.enabled) = some (g.resolve child) := by
      simp [Option.filter, henabled]
    simp only [hfilter, resolve_block, hspec, bind, Except.bind, if_true]
    cases htype : g.registry.typeOf child with
    | error e => exact .inl ⟨e, rfl, rfl⟩
    | ok spec =>
      dsimp only
      cases houtput : spec.output with
      | none => exact .inl ⟨_, rfl, rfl⟩
      | some output =>
        dsimp only
        cases hfits : output.fits check with
        | false => exact .inl ⟨_, rfl, rfl⟩
        | true =>
          have hvalue : spec.isValueBlock = true := by
            simp [BlockSpec.isValueBlock, houtput]
          exact .inr (.inr ⟨rfl, ⟨spec, rfl, hvalue⟩, rfl⟩)

/-- Every value can be spliced. -/
theorem verdict_splice {outer : Order} {default : String} {f : Fragment} (h : f.isValue = true) :
    verdict (splice outer default b f) = .ok () := by
  cases f with
  | statement code => cases h
  | expression code order =>
    dsimp only [splice]
    by_cases hempty : code.isEmpty = true
    · rw [if_pos hempty]; rfl
    · rw [if_neg hempty]
      split <;> rfl

/-- The value in a slot fails where the walk fails in the slot, if the block
    that is connected does. -/
theorem settles_valueOf {outer : Order} {default : String} {check : Option (List String)}
    (hkind : g.slotKind b slot = .ok (.value check))
    (hchild : ∀ child, b.input? slot = some child →
      Generation.Settles (g.resolve child).emitted (g.registry.walkBlock child).emission
        fun f => ∀ spec, g.registry.typeOf child = .ok spec → f.isValue = spec.isValueBlock) :
    Generation.Settles (g.valueOf b slot outer default ((b.input? slot).map g.resolve))
      (match (b.input? slot).map g.registry.walkBlock with
        | some child => g.registry.walkValue b slot check child
        | none => .ok ())
      fun _ => True := by
  unfold valueOf
  cases hinput : b.input? slot with
  | none =>
    have hsupplier : g.supplier b slot none = .ok none := by
      unfold supplier
      rw [hkind]
      rfl
    dsimp only [Option.map_none]
    rw [hsupplier]
    exact .pure trivial
  | some child =>
    dsimp only [Option.map_some]
    rcases supplier_cases child hkind with ⟨e, hsupplier, hwalk⟩ | ⟨hsupplier, hwalk⟩ |
      ⟨hsupplier, ⟨spec, htype, hvalue⟩, hwalk⟩
    · rw [hsupplier, hwalk]
      exact .throw
    · rw [hsupplier, hwalk]
      exact .pure trivial
    · rw [hsupplier, hwalk, ← verdict_bind_ok (g.registry.walkBlock child).emission]
      refine (hchild child hinput).bind fun f hf => ?_
      rw [← verdict_splice ((hf spec htype).trans hvalue)]
      exact Generation.Settles.check.mono fun _ _ => trivial

theorem settles_bodyOf (hkind : g.slotKind b slot = .ok .body)
    (hchain : ∀ first, b.input? slot = some first →
      Generation.Settles ((g.resolve first).chain true)
        ((g.registry.walkBlock first).chain true) fun _ => True) :
    Generation.Settles (g.bodyOf b slot ((b.input? slot).map g.resolve))
      (match (b.input? slot).map g.registry.walkBlock with
        | some first => first.chain true
        | none => .ok ())
      fun _ => True := by
  unfold bodyOf
  rw [hkind]
  cases hinput : b.input? slot with
  | none => exact .pure trivial
  | some first =>
    show Generation.Settles _ ((g.registry.walkBlock first).chain true) _
    rw [← verdict_bind_ok ((g.registry.walkBlock first).chain true)]
    exact (hchain first hinput).bind fun code _ => .pure trivial

/-! ## Blocks and chains -/

/-- What a block and the chain that it begins are emitted to settles as the
    walk says. -/
def Follows (g : Generator) (b : Block) : Prop :=
  Generation.Settles (g.resolve b).emitted (g.registry.walkBlock b).emission
      (fun f => ∀ spec, g.registry.typeOf b = .ok spec → f.isValue = spec.isValueBlock) ∧
    ∀ attached, Generation.Settles ((g.resolve b).chain attached)
      ((g.registry.walkBlock b).chain attached) fun _ => True

/-- Each question about a slot is answered with the verdict of the walk. -/
theorem verdict_answer {e : Builtin} (he : e ∈ builtins)
    (htype : g.registry.get? b.type = some (e.named b.type))
    (hinputs : ∀ slot child, b.input? slot = some child → g.Follows child) {slot : Slot}
    (hslot : slot ∈ e.spec.addressableSlots) {query : Query} (hquery : slot.Poses query)
    (pass : Pass) :
    query.verdict ((g.answer b (Dictionary.mapValues g.resolve b.inputs) query).run pass).1 =
      g.registry.walkSlot b (Dictionary.mapValues g.registry.walkBlock b.inputs) slot := by
  have hkind := slotKind_of_mem he htype hslot
  have hwalked : Dictionary.get? (Dictionary.mapValues g.registry.walkBlock b.inputs) slot.name =
      (b.input? slot.name).map g.registry.walkBlock := Dictionary.get?_mapValues _ _ _
  cases query with
  | value name outer default =>
    obtain ⟨rfl, check, hcheck⟩ := hquery
    rw [hcheck] at hkind
    simp only [answer, get?_resolved, Registry.walkSlot, hcheck, hwalked]
    exact (settles_valueOf hkind (fun child hchild => (hinputs _ child hchild).1) pass).1
  | body name =>
    obtain ⟨rfl, hbody⟩ := hquery
    rw [hbody] at hkind
    simp only [answer, get?_resolved, Registry.walkSlot, hbody, hwalked]
    exact (settles_bodyOf hkind (fun first hfirst => (hinputs _ first hfirst).2 true) pass).1
  | fieldText name =>
    obtain ⟨rfl, ⟨default, hfield⟩ | ⟨options, hfield⟩⟩ := hquery
    · rw [hfield] at hkind
      rw [Registry.walkSlot, hfield]
      exact verdict_fieldText_text hkind
    · rw [hfield] at hkind
      rw [Registry.walkSlot, hfield]
      exact verdict_fieldText_dropdown hkind
  | fieldNumber name =>
    obtain ⟨rfl, default, least, greatest, hfield⟩ := hquery
    have hdefault := startsFinite_default e.spec (mem_catalog he) slot hslot
    rw [Slot.startsFinite, hfield] at hdefault
    rw [hfield] at hkind
    rw [Registry.walkSlot, hfield]
    exact verdict_fieldNumber hkind hdefault
  | recorded => exact hquery.elim
  | context operation => exact hquery.elim
  | report event => exact hquery.elim

/-- A block is emitted to what its type says, unless the walk through its slots
    meets a violation. -/
theorem settles_emitted (hstandard : g.Standard)
    (hinputs : ∀ slot child, b.input? slot = some child → g.Follows child) :
    Generation.Settles (g.resolve b).emitted (g.registry.walkBlock b).emission
      fun f => ∀ spec, g.registry.typeOf b = .ok spec → f.isValue = spec.isValueBlock := by
  rw [resolve_emitted, Registry.walkBlock_emission, Registry.walkEmission]
  rcases hstandard b.type with ⟨htype, hemitter⟩ | ⟨e, he, htype, hemitter⟩
  · simp only [emit, hemitter, Registry.typeOf, htype]
    exact .throw
  · simp only [emit, hemitter, Registry.typeOf, htype]
    intro pass
    obtain ⟨hverdict, hkind⟩ := (visits_builtins he b g.indent).run
      (fun slot hslot query hquery pass => verdict_answer he htype hinputs hslot hquery pass)
      (pass.report (.emitting b.id b.type))
    refine ⟨hverdict, fun f hf spec hspec => ?_⟩
    cases hspec
    exact hkind f hf

/-- The generator and the walk judge a link alike. If neither finds a fault, both
    go on in the block if it is enabled, and then in the block that follows. -/
theorem checkLink_cases (attached : Bool) (emission : Except GenerateError Unit)
    (next : Option Walked) :
    (∃ e, g.checkLink b attached = .error e ∧
      g.registry.walkLink b emission next attached = .error e) ∨
    (g.checkLink b attached = .ok () ∧
      (∃ spec, g.registry.typeOf b = .ok spec ∧ spec.isValueBlock = false) ∧
      g.registry.walkLink b emission next attached =
        ((if b.enabled then emission else .ok ()) >>= fun _ =>
          match next with
          | some follower => follower.chain true
          | none => .ok ())) := by
  have hspec : g.specOf b = g.registry.typeOf b := rfl
  unfold checkLink Registry.walkLink
  rw [hspec]
  cases htype : g.registry.typeOf b with
  | error e => exact .inl ⟨e, rfl, rfl⟩
  | ok spec =>
    cases hvalue : spec.isValueBlock with
    | true =>
      simp only [bind, Except.bind, hvalue]
      exact .inl ⟨_, rfl, rfl⟩
    | false =>
      cases hfollows : attached && !spec.followsOthers with
      | true =>
        simp only [bind, Except.bind, hvalue, hfollows]
        exact .inl ⟨_, rfl, rfl⟩
      | false =>
        simp only [bind, Except.bind, hvalue, hfollows]
        refine .inr ⟨rfl, ⟨spec, rfl, hvalue⟩, ?_⟩
        cases b.enabled <;> rfl

theorem settles_link {emitted : Generation Fragment} {emission : Except GenerateError Unit}
    {next : Option Block}
    (hemitted : Generation.Settles emitted emission
      fun f => ∀ spec, g.registry.typeOf b = .ok spec → f.isValue = spec.isValueBlock)
    (hnext : ∀ follower, next = some follower → g.Follows follower) (attached : Bool) :
    Generation.Settles (g.link b emitted (next.map g.resolve) attached)
      (g.registry.walkLink b emission (next.map g.registry.walkBlock) attached)
      fun _ => True := by
  rw [link_eq]
  rcases checkLink_cases attached emission (next.map g.registry.walkBlock) with
    ⟨e, hcheck, hwalk⟩ | ⟨hcheck, ⟨spec, htype, hvalue⟩, hwalk⟩
  · rw [hcheck, hwalk]
    exact .throw
  · have own : Generation.Settles (ownCode b emitted) (if b.enabled then emission else .ok ())
        fun _ => True := by
      unfold ownCode
      split
      · rw [← verdict_bind_ok emission]
        refine hemitted.bind fun f hf => ?_
        cases f with
        | statement code => exact .pure trivial
        | expression code order =>
          -- the type of the block has no output
          have hcontra := (hf spec htype).trans hvalue
          cases hcontra
      · exact .pure trivial
    rw [hcheck, hwalk]
    refine own.bind fun code _ => ?_
    cases hfollower : next with
    | none => exact .pure trivial
    | some follower =>
      show Generation.Settles _ ((g.registry.walkBlock follower).chain true) _
      rw [← verdict_bind_ok ((g.registry.walkBlock follower).chain true)]
      exact ((hnext follower hfollower).2 true).bind fun more _ => .pure trivial

/-- Emitting a block or a chain fails where the walk through it does. -/
theorem follows (hstandard : g.Standard) (b : Block) : g.Follows b := by
  induction b using Block.tree_induction with
  | step b inputs next =>
    have emitted := settles_emitted hstandard inputs
    refine ⟨emitted, fun attached => ?_⟩
    rw [resolve_chain, Registry.walkBlock_chain]
    exact settles_link emitted next attached

theorem settles_topLevel (hstandard : g.Standard) (b : Block) :
    Generation.Settles (g.topLevel (g.resolve b)) (g.registry.walkTop (g.registry.walkBlock b))
      fun _ => True := by
  obtain ⟨hemitted, hchain⟩ := follows hstandard b
  unfold topLevel Registry.walkTop
  rw [resolve_block, Registry.walkBlock_block, show g.specOf b = g.registry.typeOf b from rfl]
  cases htype : g.registry.typeOf b with
  | error e => exact .throw
  | ok spec =>
    show Generation.Settles (if spec.isValueBlock = true then _ else _)
      (if spec.isValueBlock = true then _ else _) _
    split
    · cases henabled : b.enabled with
      | false => exact .pure trivial
      | true =>
        show Generation.Settles _ (g.registry.walkBlock b).emission _
        rw [← verdict_bind_ok (g.registry.walkBlock b).emission]
        refine hemitted.bind fun f _ => ?_
        cases f with
        | expression code order => exact .pure trivial
        | statement code => exact .pure trivial
    · exact hchain false

/-! ## Passes -/

/-- A pass over the top-level blocks fails where the walk does. -/
theorem settles_topLevels (hstandard : g.Standard) (w : Workspace) :
    Generation.Settles (g.topLevels w) (g.registry.walk w) fun _ => True :=
  .mapM fun b _ => settles_topLevel hstandard b

theorem verdict_generate (hstandard : g.Standard) (w : Workspace) :
    verdict (g.generate w) = g.registry.walk w := by
  obtain ⟨hverdict, -⟩ := settles_topLevels hstandard w ⟨Context.withIndent g.indent, []⟩
  rw [generate_eq, ← hverdict]
  obtain ⟨result, pass⟩ := (g.topLevels w).run.run ⟨Context.withIndent g.indent, []⟩
  cases result with
  | error e => rfl
  | ok chunks => rw [verdict_ok, verdict_ok]

/-- Over the default catalog, with any other names for its types, the block types
    alone decide which workspaces compile. A workspace fails with the first
    violation of the walk through it, and gives a script if there is none. -/
theorem generate_iff_walk {builder : Builder} {g : Generator}
    (specs : builder.specs = Catalog.default) (emitters : builder.emitters = Emitters.default)
    (built : builder.build = .ok g) (w : Workspace) :
    (∀ e, g.generate w = .error e ↔ g.registry.walk w = .error e) ∧
      ((∃ script, g.generate w = .ok script) ↔ g.registry.walk w = .ok ()) := by
  have hstandard := (Builder.standard_of_build specs emitters built).1
  rw [← verdict_generate hstandard w]
  exact ⟨fun e => verdict_eq_error_iff.symm, verdict_eq_ok_iff.symm⟩

/-- A message of an unknown type, plugged into a block that logs it, is the
    violation that the pass ends with. -/
theorem generate_unknown_message :
    Generator.generate ⟨⟨Catalog.default⟩, Emitters.default, (Builder.default.indentWidth 4).indent⟩
      ⟨[⟨"b1", "modbus_log", true, [], [("MSG", ⟨"b2", "mystery", true, [], [], none⟩)], none⟩]⟩ =
    .error (.unknownBlockType "b2" "mystery") :=
  ((generate_iff_walk rfl rfl (Builder.build_default 4) _).1 _).mpr rfl

end Generator

end PollScript
