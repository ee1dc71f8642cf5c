import PollScript.Proofs.Parallel

/-!
# Counterparts

Counterparts are blocks of two workspaces that vary only in what a variation allows: in
the names of types, and in texts that only ever stand in string literals. Generators are
counterparts if each type of the one is known to the other one by its other name.

Passes over counterparts go in step. They end with alike scripts, or with errors that are
the same up to the name of a type.

Results:

* `Variation.couples_resolve`: counterparts are emitted to alike code, alone and in chains.
* `Variation.agree_generate`: counterparts give alike scripts, or the same error.
-/

namespace PollScript

open Script

namespace Variation

variable (v : Variation)

/-- An error of the second pass in the words of the first one. -/
def translate : GenerateError → GenerateError :=
  GenerateError.mapType v.rename

/-- Two blocks that differ in what is allowed only, apart from the blocks around them. -/
structure Counterparts (b c : Block) : Prop where
  id : b.id = c.id
  type : b.type = v.rename c.type
  enabled : b.enabled = c.enabled
  /-- Their fields are the same, apart from texts that only ever stand in literals. -/
  fields : ∀ slot, b.field? slot = c.field? slot ∨
    ((b.type, slot) ∈ literalFields ∧
      ∃ s t, b.field? slot = some (.text s) ∧ c.field? slot = some (.text t) ∧ v.Texts s t)

/-- Two generators that differ in what is allowed only. -/
structure Generators (g h : Generator) : Prop where
  leftUnit : g.indent = v.leftIndent
  rightUnit : h.indent = v.rightIndent
  plain : g.Plain
  /-- The second one has the block types of the first one under other names. -/
  specs : ∀ type, h.registry.get? type =
    (g.registry.get? (v.rename type)).map fun spec => { spec with type }
  /-- It has their emitters. -/
  emitters : ∀ type, Dictionary.get? h.emitters type = Dictionary.get? g.emitters (v.rename type)

/-- Two passes with alike contexts. -/
def Passes (pass pass' : Pass) : Prop :=
  v.Contexts pass.context pass'.context

/-- Two resolved blocks that are emitted to alike code. -/
structure Resolves (r r' : Resolved) : Prop where
  blocks : v.Counterparts r.block r'.block
  emitted : Generation.Couples v.translate v.Passes v.Fragments r.emitted r'.emitted
  chain : ∀ attached, Generation.Couples v.translate v.Passes v.Statements
    (r.chain attached) (r'.chain attached)

variable {v} {g h : Generator} {b c : Block} {slot default : String} {outer : Order}

/-! ## Block types and slots -/

section Checks

variable (hgh : v.Generators g h) (hbc : v.Counterparts b c)

include hgh hbc

theorem agree_specOf :
    Agree v.translate (fun spec spec' => spec' = { spec with type := c.type })
      (g.specOf b) (h.specOf c) := by
  unfold Generator.specOf
  rw [hgh.specs, ← hbc.type]
  cases g.registry.get? b.type with
  | none =>
    rw [hbc.type, hbc.id]
    exact .error (GenerateError.unknownBlockType c.id c.type)
  | some spec => exact .ok rfl

omit hgh in
theorem agree_unknownSlot {α β : Type} {post : α → β → Prop} :
    Agree v.translate post (.error (Generator.unknownSlot b slot))
      (.error (Generator.unknownSlot c slot)) := by
  rw [Generator.unknownSlot, hbc.type, hbc.id]
  exact .error (GenerateError.unknownSlot c.id c.type slot)

theorem agree_slotKind : Agree v.translate Eq (g.slotKind b slot) (h.slotKind c slot) := by
  refine (agree_specOf hgh hbc).bind fun spec spec' hspec => ?_
  subst hspec
  rw [show ({ spec with type := c.type } : BlockSpec).slot? slot = spec.slot? slot from rfl]
  cases spec.slot? slot with
  | none => exact agree_unknownSlot hbc
  | some s => exact .ok rfl

theorem agree_checkLink (attached : Bool) :
    Agree v.translate Eq (g.checkLink b attached) (h.checkLink c attached) := by
  refine (agree_specOf hgh hbc).bind fun spec spec' hspec => ?_
  subst hspec
  rw [show ({ spec with type := c.type } : BlockSpec).isValueBlock = spec.isValueBlock from rfl,
    hbc.type, hbc.id]
  dsimp only
  cases spec.isValueBlock with
  | true => exact .error (GenerateError.notAStatementBlock c.id c.type)
  | false =>
    cases attached && !spec.followsOthers with
    | true => exact .error (GenerateError.noPreviousConnection c.id c.type)
    | false => exact .ok rfl

theorem agree_supplier {x y : Option Resolved} (hxy : Option.Rel v.Resolves x y) :
    Agree v.translate (Option.Rel v.Resolves) (g.supplier b slot x) (h.supplier c slot y) := by
  refine (agree_slotKind hgh hbc).bind fun kind kind' hkind => ?_
  subst hkind
  cases kind with
  | value check =>
    have hfilter : Option.Rel v.Resolves (x.filter (·.block.enabled))
        (y.filter (·.block.enabled)) := by
      cases hxy with
      | none => exact .none
      | @some r r' hr =>
        rw [Option.filter_some, Option.filter_some, hr.blocks.enabled]
        split
        · exact .some hr
        · exact .none
    dsimp only
    generalize x.filter (·.block.enabled) = child at hfilter
    generalize y.filter (·.block.enabled) = child' at hfilter
    cases hfilter with
    | none => exact .ok .none
    | @some r r' hr =>
      refine (agree_specOf hgh hr.blocks).bind fun spec spec' hspec => ?_
      subst hspec
      rw [hbc.id, hr.blocks.id, hr.blocks.type]
      dsimp only
      cases spec.output with
      | none => exact .error (GenerateError.notAValueBlock r'.block.id r'.block.type)
      | some output =>
        dsimp only
        cases output.fits check with
        | true => exact .ok (.some hr)
        | false => exact .error (GenerateError.incompatibleConnection c.id slot output.label
            (", ".intercalate (check.getD [])))
  | _ => exact agree_unknownSlot hbc

omit hgh in
/-- Alike fragments are spliced to alike code. -/
theorem agree_splice {f f' : Fragment} (hdefault : v.Expressions default default)
    (hf : v.Fragments f f') :
    Agree v.translate v.Expressions (Generator.splice outer default b f)
      (Generator.splice outer default c f') := by
  cases hf with
  | @expression code code' order hcode =>
    rw [Generator.splice, Generator.splice, hcode.isEmpty_eq]
    split
    · exact .ok hdefault
    · split
      · exact .ok (hcode.enclosed (by decide) (by decide))
      · exact .ok hcode
  | statement hcode =>
    rw [Generator.splice, Generator.splice, hbc.type, hbc.id]
    exact .error (GenerateError.notAValueBlock c.id c.type)

omit hgh in
theorem agree_statementOf {f f' : Fragment} (hf : v.Fragments f f') :
    Agree v.translate v.Statements (Generator.statementOf b f) (Generator.statementOf c f') := by
  cases hf with
  | statement hcode => exact .ok hcode
  | expression order hcode =>
    rw [Generator.statementOf, Generator.statementOf, hbc.type, hbc.id]
    exact .error (GenerateError.notAStatementBlock c.id c.type)

end Checks

/-! ## Fields -/

/-- Whether a slot is a field for any text. -/
def isTextField (slot : Slot) : Bool :=
  match slot.kind with
  | .text _ => true
  | _ => false

theorem isTextField_of_mem {e : Builtin} (he : e ∈ builtins)
    (h : (e.spec.type, slot) ∈ literalFields) {s : Slot} (hs : e.spec.slot? slot = some s) :
    isTextField s = true := by
  have hall : ∀ e ∈ builtins, ∀ field ∈ literalFields, field.1 = e.spec.type →
      (e.spec.slot? field.2).all isTextField = true := by decide +kernel
  have hslot := hall e he _ h rfl
  rw [hs] at hslot
  exact hslot

section Fields

variable {e : Builtin} (he : e ∈ builtins) (hname : e.spec.type = b.type)
  (htype : g.registry.get? b.type = some (e.named b.type)) (hgh : v.Generators g h)
  (hbc : v.Counterparts b c)

include he hname htype hbc

/-- Fields other than those for any text are the same. -/
theorem field?_congr {kind : SlotKind} (hkind : g.slotKind b slot = .ok kind)
    (hother : isTextField ⟨slot, kind⟩ = false) : b.field? slot = c.field? slot := by
  rcases hbc.fields slot with heq | ⟨hmem, -⟩
  · exact heq
  · rw [← hname] at hmem
    cases hslot : e.spec.slot? slot with
    | none =>
      have hnone : (e.named b.type).slot? slot = none := hslot
      simp only [Generator.slotKind, Generator.specOf, htype, bind, Except.bind, hnone] at hkind
      cases hkind
    | some s =>
      rw [Generator.slotKind_of_slot? htype hslot] at hkind
      cases hkind
      have htext := isTextField_of_mem he hmem hslot
      rw [isTextField] at htext hother
      rw [htext] at hother
      cases hother

omit hname he htype in
/-- Numbers are read alike from the same field. -/
theorem agree_readNumber {default : Float} (hfield : b.field? slot = c.field? slot) :
    Agree v.translate Eq (Generator.readNumber b slot default)
      (Generator.readNumber c slot default) := by
  unfold Generator.readNumber
  rw [hfield, hbc.id]
  cases c.field? slot with
  | none => exact .ok rfl
  | some value =>
    cases value with
    | number x => exact .ok rfl
    | text s =>
      dsimp only
      cases Decimal.read? (String.ofList (Text.trim s.toList)) with
      | some x => exact .ok rfl
      | none => exact .error (GenerateError.invalidFieldValue c.id slot _)

omit hname he htype in
/-- So are choices. -/
theorem agree_chosen {options : List (String × String)} (hfield : b.field? slot = c.field? slot) :
    Agree v.translate Eq (Generator.chosen b slot options) (Generator.chosen c slot options) := by
  unfold Generator.chosen
  rw [hfield, hbc.id]
  cases c.field? slot with
  | none => exact .ok rfl
  | some value =>
    dsimp only
    split
    · exact .ok rfl
    · exact .error (GenerateError.invalidFieldValue c.id slot _)

include hgh

theorem agree_fieldNumber :
    Agree v.translate Eq (g.fieldNumber b slot) (h.fieldNumber c slot) := by
  refine ((agree_slotKind hgh hbc).and_left fun _ hkind => hkind).bind ?_
  rintro kind _ ⟨rfl, hkind⟩
  cases kind with
  | number default least greatest =>
    have hfield := field?_congr he hname htype hbc hkind rfl
    refine (agree_readNumber hbc hfield).bind fun value _ hvalue => ?_
    subst hvalue
    rw [hbc.id]
    cases value.isFinite with
    | true => exact .ok rfl
    | false => exact .error (GenerateError.invalidFieldValue c.id slot _)
  | _ => exact agree_unknownSlot hbc

theorem agree_fieldText :
    Agree v.translate (v.FieldTexts e.spec slot) (g.fieldText b slot) (h.fieldText c slot) := by
  have hchoice : ∀ t, g.fieldText b slot = .ok t → ∀ first rest,
      e.spec.slot? slot = some ⟨slot, .dropdown (first :: rest)⟩ →
        t ∈ (first :: rest).map (·.2) :=
    fun t ht first rest hslot => (Generator.fieldText_eq_choice htype hslot ht).2
  refine Agree.and_left ?_ hchoice
  refine ((agree_slotKind hgh hbc).and_left fun _ hkind => hkind).bind ?_
  rintro kind _ ⟨rfl, hkind⟩
  cases kind with
  | text default =>
    refine .ok ?_
    rcases hbc.fields slot with heq | ⟨hmem, s, t, hs, ht, htexts⟩
    · rw [heq]
      exact .inl rfl
    · rw [hs, ht]
      exact .inr ⟨hname ▸ hmem, htexts⟩
  | dropdown options =>
    have hfield := field?_congr he hname htype hbc hkind rfl
    exact (agree_chosen hbc hfield).mono fun _ _ heq => .inl heq
  | number default least greatest =>
    refine (agree_fieldNumber he hname htype hgh hbc).bind fun x _ hx => ?_
    rw [hx]
    exact .ok (.inl rfl)
  | _ => exact agree_unknownSlot hbc

end Fields

/-! ## Codes -/

section Codes

variable (hgh : v.Generators g h) (hbc : v.Counterparts b c)

include hgh hbc

theorem couples_valueOf {x y : Option Resolved} (hdefault : v.Expressions default default)
    (hxy : Option.Rel v.Resolves x y) :
    Generation.Couples v.translate v.Passes v.Expressions
      (g.valueOf b slot outer default x) (h.valueOf c slot outer default y) := by
  refine (Generation.Couples.check (agree_supplier hgh hbc hxy)).bind fun child child' hchild => ?_
  cases hchild with
  | none => exact .pure hdefault
  | some hr =>
    exact hr.emitted.bind fun f f' hf => .check (agree_splice hr.blocks hdefault hf)

omit hgh hbc in
theorem couples_chainCode {x y : Option Resolved} (hxy : Option.Rel v.Resolves x y)
    (attached : Bool) :
    Generation.Couples v.translate v.Passes v.Statements
      (Generator.chainCode x attached) (Generator.chainCode y attached) := by
  cases hxy with
  | none => exact .pure .none
  | some hr => exact hr.chain attached

theorem couples_bodyOf {x y : Option Resolved} (hxy : Option.Rel v.Resolves x y) :
    Generation.Couples v.translate v.Passes v.Statements
      (g.bodyOf b slot x) (h.bodyOf c slot y) := by
  rw [Generator.bodyOf_eq, Generator.bodyOf_eq]
  refine (Generation.Couples.check (agree_slotKind hgh hbc)).bind fun kind kind' hkind => ?_
  subst hkind
  cases kind with
  | body =>
    refine (couples_chainCode hxy true).bind fun code code' hcode => .pure ?_
    rw [hgh.leftUnit, hgh.rightUnit]
    exact hcode.indentLines
  | _ => exact .check (agree_unknownSlot hbc)

/-- Questions about counterparts are answered alike, if the blocks in their slots are
    emitted alike. -/
theorem answers_alike {e : Builtin} (he : e ∈ builtins) (hname : e.spec.type = b.type)
    (htype : g.registry.get? b.type = some (e.named b.type))
    (inputs : ∀ slot, Option.Rel v.Resolves ((b.input? slot).map g.resolve)
      ((c.input? slot).map h.resolve))
    (query : Query) (allowed : (v.correspondence e.spec).allows query) (pass pass' : Pass)
    (hpass : v.Passes pass pass') :
    (v.correspondence e.spec).admits query
        ((g.answer b (Dictionary.mapValues g.resolve b.inputs) query).run pass).1
        ((h.answer c (Dictionary.mapValues h.resolve c.inputs) query).run pass').1 ∧
      v.Passes ((g.answer b (Dictionary.mapValues g.resolve b.inputs) query).run pass).2
        ((h.answer c (Dictionary.mapValues h.resolve c.inputs) query).run pass').2 := by
  cases query with
  | value slot outer default =>
    simp only [Generator.answer, Generator.get?_resolved]
    exact couples_valueOf hgh hbc allowed (inputs slot) pass pass' hpass
  | body slot =>
    simp only [Generator.answer, Generator.get?_resolved]
    exact couples_bodyOf hgh hbc (inputs slot) pass pass' hpass
  | fieldText slot => exact ⟨agree_fieldText he hname htype hgh hbc, hpass⟩
  | fieldNumber slot => exact ⟨agree_fieldNumber he hname htype hgh hbc, hpass⟩
  | recorded =>
    refine ⟨⟨hpass.tasks, ?_⟩, hpass⟩
    show decide (0 < pass.context.taskDepth) = decide (0 < pass'.context.taskDepth)
    rw [hpass.depth]
  | context operation => exact allowed.elim
  | report event => exact allowed.elim

/-- The emissions of counterparts go in step, if those of the blocks in their slots do. -/
theorem couples_emitted
    (inputs : ∀ slot, Option.Rel v.Resolves ((b.input? slot).map g.resolve)
      ((c.input? slot).map h.resolve)) :
    Generation.Couples v.translate v.Passes v.Fragments
      (g.resolve b).emitted (h.resolve c).emitted := by
  rw [Generator.resolve_emitted, Generator.resolve_emitted]
  unfold Generator.emit
  rw [hgh.emitters, ← hbc.type, hgh.leftUnit, hgh.rightUnit]
  rcases hgh.plain b.type with ⟨-, hemitter⟩ | ⟨e, he, hname, htype, hemitter⟩
  · rw [hemitter, hbc.id, hbc.type]
    exact .check (.error (GenerateError.unknownBlockType c.id c.type))
  · rw [hemitter]
    intro pass pass' hpass
    exact Program.Coupled.run (answers_alike hgh hbc he hname htype inputs)
      (fun _ _ hdoes _ _ hcontexts => hcontexts.apply hdoes) (fun _ _ _ _ hcontexts => hcontexts)
      (parallel_builtins he b c) hpass

/-- A chain goes in step with its counterpart, if its first block and the chain behind it
    do. -/
theorem couples_chain
    (emitted : Generation.Couples v.translate v.Passes v.Fragments
      (g.resolve b).emitted (h.resolve c).emitted)
    (next : Option.Rel v.Resolves (b.next.map g.resolve) (c.next.map h.resolve))
    (attached : Bool) :
    Generation.Couples v.translate v.Passes v.Statements
      ((g.resolve b).chain attached) ((h.resolve c).chain attached) := by
  have hown : Generation.Couples v.translate v.Passes v.Statements
      (Generator.ownCode b (g.resolve b).emitted) (Generator.ownCode c (h.resolve c).emitted) := by
    unfold Generator.ownCode
    rw [hbc.enabled]
    split
    · exact emitted.bind fun f f' hf => .check (agree_statementOf hbc hf)
    · exact .pure .none
  rw [Generator.resolve_chain, Generator.resolve_chain, Generator.link_eq, Generator.link_eq]
  refine (Generation.Couples.check (agree_checkLink hgh hbc attached)).bind fun _ _ _ => ?_
  refine hown.bind fun code code' hcode => ?_
  exact (couples_chainCode next true).bind fun more more' hmore => .pure (hcode.append hmore)

end Codes

/-! ## Passes -/

/-- Counterparts all the way down are emitted to alike code, alone and in chains. -/
theorem couples_resolve (hgh : v.Generators g h) (hbc : Block.Along v.Counterparts b c) :
    v.Resolves (g.resolve b) (h.resolve c) := by
  have lift : ∀ {x y : Option Block}, Option.Rel (fun b c => v.Resolves (g.resolve b) (h.resolve c))
      x y → Option.Rel v.Resolves (x.map g.resolve) (y.map h.resolve) := by
    intro x y hxy
    cases hxy with
    | none => exact .none
    | some hr => exact .some hr
  refine Block.Along.tree_induction (Q := fun b c => v.Resolves (g.resolve b) (h.resolve c))
    (fun b c hlocal inputs next => ?_) hbc
  have emitted := couples_emitted hgh hlocal fun slot => lift (inputs slot)
  exact ⟨by simpa using hlocal, emitted, couples_chain hgh hlocal emitted (lift next)⟩

theorem couples_topLevel (hgh : v.Generators g h) (hbc : Block.Along v.Counterparts b c) :
    Generation.Couples v.translate v.Passes v.Statements
      (g.topLevel (g.resolve b)) (h.topLevel (h.resolve c)) := by
  have hr := couples_resolve hgh hbc
  unfold Generator.topLevel
  refine (Generation.Couples.check (agree_specOf hgh hr.blocks)).bind fun spec spec' hspec => ?_
  subst hspec
  rw [hr.blocks.enabled,
    show ({ spec with type := (h.resolve c).block.type } : BlockSpec).isValueBlock =
      spec.isValueBlock from rfl]
  split
  · split
    · refine hr.emitted.bind fun f f' hf => ?_
      cases hf with
      | expression order hcode => exact .pure ((hcode true).append (.text (by decide)))
      | statement hcode => exact .pure hcode
    · exact .pure .none
  · exact hr.chain false

/-- Alike pieces are put together to alike code. -/
theorem sections_joinChunks {chunks chunks' : List String}
    (hchunks : List.Forall₂ v.Statements chunks chunks') :
    v.Sections (Generator.joinChunks chunks) (Generator.joinChunks chunks') := by
  refine Alike.exists_intercalate (by decide) ?_
  have hkept := List.rel_filter (p := fun code : String => !Text.allBlank code.toList)
    (q := fun code : String => !Text.allBlank code.toList)
    (fun _ _ hcode => by simp [Versions.allBlank_eq hcode]) hchunks
  exact hkept.imp fun _ _ hcode => ⟨true, hcode⟩

/-- Workspaces of counterparts give alike scripts, or the same error in other words. -/
theorem agree_generate (hgh : v.Generators g h) {w u : Workspace}
    (hblocks : List.Forall₂ (Block.Along v.Counterparts) w.blocks u.blocks) :
    Agree v.translate v.Sections (g.generate w) (h.generate u) := by
  have hstart : v.Passes ⟨Context.withIndent g.indent, []⟩ ⟨Context.withIndent h.indent, []⟩ :=
    ⟨hgh.leftUnit, hgh.rightUnit, .nil, .nil, rfl,
      fun _ htask => absurd htask List.not_mem_nil, rfl⟩
  have hpass : Generation.Couples v.translate v.Passes (List.Forall₂ v.Statements)
      (g.topLevels w) (h.topLevels u) :=
    .mapM hblocks fun b c hbc => couples_topLevel hgh hbc
  obtain ⟨hagree, hend⟩ := hpass _ _ hstart
  rw [Generator.generate_eq, Generator.generate_eq]
  generalize (g.topLevels w).run.run ⟨Context.withIndent g.indent, []⟩ = ended at hagree hend
  generalize (h.topLevels u).run.run ⟨Context.withIndent h.indent, []⟩ = ended' at hagree hend
  obtain ⟨result, pass⟩ := ended
  obtain ⟨result', pass'⟩ := ended'
  cases hagree with
  | ok hchunks => exact .ok (sections_finalize (sections_joinChunks hchunks) hend)
  | error e => exact .error e

end Variation

end PollScript
