import PollScript.Proofs.Bounds
import PollScript.Proofs.Ledger
import PollScript.Proofs.Overflow
import PollScript.Proofs.Tasks
import PollScript.Proofs.Walk

/-!
# Numbers in a script

A number field holds a finite number, which a script gets as a decimal literal. A task gets
its interval twice, in seconds and in milliseconds. The seconds are the number of the field.
The milliseconds are computed from it after it has been checked, and are not checked again:
they are a literal as long as the product is finite, and a word that no script knows beyond.

Results:

* `isDecimal_number`: the literal of a finite number is a decimal.
* `Registry.GetsTo.walks`: where a walk finds no fault, it finds none in any block that a
  pass gets to.
* `Generator.emitted_number`, `Generator.emitted_interval`: how a number gets into the code
  of a block.
* `Generator.numbers_generate`: in a script that is generated, the numbers of all fields are
  decimals, and so are the milliseconds of all intervals up to `longestInterval`.
-/

namespace PollScript

open Script

/-! ## Literals -/

namespace Script

/-- A text is a decimal literal: a numeral, with or without a minus in front. -/
def IsDecimal (t : String) : Prop :=
  ∃ sign body, t.toList = Decimal.signText sign ++ body ∧ isNumeral body = true

/-- The literal of a finite number is a decimal. -/
theorem isDecimal_number {x : Float} (h : x.isFinite = true) : IsDecimal (number x) := by
  obtain ⟨sign, body, hchars, hbody⟩ := isNumeral_numberChars h
  exact ⟨sign, body, by rw [number, String.toList_ofList, hchars], hbody⟩

/-- Of an infinite number only the name is left, which is no decimal. -/
theorem number_of_infinity {x : Float} (h : x.toModel.unpack = .infinity .positive) :
    number x = "inf" := by
  rw [number, h]
  rfl

theorem not_isDecimal_inf : ¬IsDecimal "inf" := by
  rintro ⟨sign, body, hchars, hbody⟩
  cases sign with
  | positive =>
    have : body = ['i', 'n', 'f'] := hchars.symm
    rw [this] at hbody
    cases hbody
  | negative => cases hchars

end Script

/-! ## Blocks that a pass gets to -/

theorem forall_of_forM_eq_ok {α ε : Type} {check : α → Except ε Unit} {items : List α}
    (h : items.forM check = .ok ()) : ∀ item ∈ items, check item = .ok () := by
  induction items with
  | nil => simp
  | cons first rest ih =>
    obtain ⟨_, hfirst, hrest⟩ := bind_eq_ok.mp h
    exact List.forall_mem_cons.mpr ⟨hfirst, ih hrest⟩

namespace Registry

variable {r : Registry}

/-- The walk through a block in its role finds no fault. -/
def Walks (r : Registry) (b : Block) : Role → Prop
  | .alone => (r.walkBlock b).emission = .ok ()
  | .chain => ∃ attached, (r.walkBlock b).chain attached = .ok ()

theorem walkLink_eq_ok {b : Block} {emission : Except GenerateError Unit} {next : Option Walked}
    {attached : Bool} (h : r.walkLink b emission next attached = .ok ()) :
    (b.enabled = true → emission = .ok ()) ∧
      ∀ follower, next = some follower → follower.chain true = .ok () := by
  obtain ⟨spec, htype, h⟩ := bind_eq_ok.mp h
  cases hvalue : spec.isValueBlock with
  | true => simp [hvalue, bind, Except.bind] at h
  | false =>
    cases hfollows : attached && !spec.followsOthers with
    | true => simp [hvalue, hfollows, bind, Except.bind] at h
    | false =>
      cases henabled : b.enabled with
      | false =>
        simp only [hvalue, hfollows, henabled] at h
        refine ⟨by simp, ?_⟩
        rintro follower rfl
        exact h
      | true =>
        simp only [hvalue, hfollows, henabled] at h
        obtain ⟨_, hemission, hnext⟩ := bind_eq_ok.mp h
        refine ⟨fun _ => hemission, ?_⟩
        rintro follower rfl
        exact hnext

/-- The walk through an enabled block finds no fault in the block itself. -/
theorem Walks.emission {b : Block} {role : Role} (h : r.Walks b role)
    (enabled : b.enabled = true) : (r.walkBlock b).emission = .ok () := by
  cases role with
  | alone => exact h
  | chain =>
    obtain ⟨attached, hchain⟩ := h
    rw [walkBlock_chain] at hchain
    exact (walkLink_eq_ok hchain).1 enabled

/-- Nor does it find one in any slot of it. -/
theorem walkSlot_of_emission {b : Block} {spec : BlockSpec} {slot : Slot}
    (h : (r.walkBlock b).emission = .ok ()) (type : r.get? b.type = some spec)
    (hslot : slot ∈ spec.addressableSlots) :
    r.walkSlot b (Dictionary.mapValues r.walkBlock b.inputs) slot = .ok () := by
  rw [walkBlock_emission, walkEmission, typeOf, type] at h
  exact forall_of_forM_eq_ok h slot hslot

theorem get?_walked (b : Block) (slot : String) :
    Dictionary.get? (Dictionary.mapValues r.walkBlock b.inputs) slot =
      (b.input? slot).map r.walkBlock :=
  Dictionary.get?_mapValues _ _ _

/-- Nor in an enabled block that is plugged into a socket. -/
theorem emission_of_walkValue {b child : Block} {slot : String} {check : Option (List String)}
    (h : r.walkValue b slot check (r.walkBlock child) = .ok ()) (enabled : child.enabled = true) :
    (r.walkBlock child).emission = .ok () := by
  unfold walkValue at h
  rw [walkBlock_block, if_pos enabled] at h
  obtain ⟨spec, -, h⟩ := bind_eq_ok.mp h
  cases houtput : spec.output with
  | none => rw [houtput] at h; cases h
  | some output =>
    rw [houtput] at h
    dsimp only at h
    split at h
    · exact h
    · cases h

/-- Where a walk finds no fault, it finds none in any block that a pass gets to. -/
theorem GetsTo.walks {role : Role} {b c : Block} {path : List Edge}
    (h : r.GetsTo role b path c) (hwalks : r.Walks b role) :
    (r.walkBlock c).emission = .ok () := by
  induction h with
  | here enabled => exact hwalks.emission enabled
  | @value role b child c spec slot check path enabled type socket plugged below ih =>
    have hslot := walkSlot_of_emission (hwalks.emission enabled) type socket
    simp only [walkSlot, get?_walked, plugged, Option.map_some] at hslot
    have henabled : child.enabled = true := by
      by_contra hdisabled
      exact not_getsTo_alone (by simpa using hdisabled) below
    exact ih (emission_of_walkValue hslot henabled)
  | @body role b first c spec slot path enabled type socket plugged below ih =>
    have hslot := walkSlot_of_emission (hwalks.emission enabled) type socket
    simp only [walkSlot, get?_walked, plugged, Option.map_some] at hslot
    exact ih ⟨true, hslot⟩
  | @next b follower c path follows behind ih =>
    obtain ⟨attached, hchain⟩ := hwalks
    rw [walkBlock_chain, follows] at hchain
    exact ih ⟨true, (walkLink_eq_ok hchain).2 _ rfl⟩

end Registry

namespace Generator

variable {g : Generator} {b : Block}

/-- In every context, what a pass gets to is emitted without an error, if a script is
    generated. -/
theorem emits_of_live (hstandard : g.Standard) {w : Workspace} {script : String}
    (h : g.generate w = .ok script) (hb : b ∈ g.registry.liveBlocks w) (c : Context) :
    ∃ f, (g.emitBlock b c).result = .ok f := by
  have hwalk : g.registry.walk w = .ok () := by
    rw [← verdict_generate hstandard w, h]
    rfl
  obtain ⟨⟨number, p⟩, hp, rfl⟩ := List.mem_map.mp hb
  obtain ⟨top, spec, htop, htype, hgets⟩ := (Registry.mem_live_iff _ _ _ _).mp hp
  have hwalkTop := forall_of_forM_eq_ok hwalk top (List.mem_of_getElem? htop)
  have hwalks : g.registry.Walks top (if spec.isValueBlock then .alone else .chain) := by
    unfold Registry.walkTop at hwalkTop
    rw [Registry.walkBlock_block] at hwalkTop
    obtain ⟨spec', htype', hwalkTop⟩ := bind_eq_ok.mp hwalkTop
    unfold Registry.typeOf at htype'
    rw [htype] at htype'
    cases htype'
    cases hvalue : spec.isValueBlock with
    | false =>
      rw [hvalue] at hwalkTop
      exact ⟨false, hwalkTop⟩
    | true =>
      rw [hvalue] at hwalkTop hgets
      have henabled : top.enabled = true := by
        by_contra hdisabled
        exact Registry.not_getsTo_alone (by simpa using hdisabled) hgets
      rw [if_pos rfl, if_pos henabled] at hwalkTop
      exact hwalkTop
  obtain ⟨hverdict, -⟩ := (follows hstandard p.block).1 ⟨c, []⟩
  rw [hgets.walks hwalks] at hverdict
  exact verdict_eq_ok_iff.mp hverdict

/-! ## Numbers in the code of a block -/

/-- What the emitter of a block is told about the number fields of the block. -/
def numberMoves (g : Generator) (b : Block) : (query : Query) → Unit → query.Answer → Unit → Prop
  | .fieldNumber slot, _, answer, _ => answer = g.fieldNumber b slot
  | _, _, _, _ => True

theorem leads_mathNumber (indent : String) :
    (Emitters.mathNumber b indent).run.Leads (numberMoves g b)
      (fun result _ => ∀ f, result = .ok f → ∃ x, g.fieldNumber b "NUM" = .ok x ∧
        f = .expression (number x) (if x < 0 then .unarySign else .atomic)) () := by
  rintro answer _ rfl
  cases hnumber : g.fieldNumber b "NUM" with
  | error e => exact fun _ hf => nomatch hf
  | ok x =>
    rintro f hf
    cases hf
    exact ⟨x, rfl, rfl⟩

theorem leads_interval (indent : String) :
    (Emitters.taskDefinition b indent).run.Leads (numberMoves g b)
      (fun result _ => ∀ f, result = .ok f → ∃ x name body,
        g.fieldNumber b "INTERVAL" = .ok x ∧
          f = .statement (Emitters.taskFunction name indent body x)) () := by
  rintro - _ -
  rintro - _ -
  rintro id _ -
  cases id with
  | error e => exact fun _ hf => nomatch hf
  | ok id =>
  rintro answer _ rfl
  cases hnumber : g.fieldNumber b "INTERVAL" with
  | error e => exact fun _ hf => nomatch hf
  | ok x =>
  rintro recorded _ -
  -- nothing that comes after the field depends on what is in it
  have rest : ∀ name, Program.Leads (numberMoves g b)
      (fun result _ => ∀ f, result = .ok f → ∃ x' name body,
        (.ok x : Except GenerateError Float) = .ok x' ∧
          f = .statement (Emitters.taskFunction name indent body x'))
      (ExceptT.run do
        Emit.perform (.registerTask name)
        Emit.perform .enterTask
        let body ← Emit.ask (.body "DO")
        Emit.perform .leaveTask
        return Fragment.statement
          (Emitters.taskFunction name indent (← Emit.check body) x))
      () := by
    rintro name - _ -
    rintro - _ -
    rintro body _ -
    rintro - _ -
    cases body with
    | error e => exact fun _ hf => nomatch hf
    | ok body =>
      rintro f hf
      cases hf
      exact ⟨x, name, body, rfl, rfl⟩
  dsimp only [Program.bind, Function.comp_apply, ExceptT.bindCont]
  split
  · rintro - _ -
    exact rest _
  · exact rest _

/-- The code of a block is what its emitter makes of the numbers in its fields. -/
theorem result_emitBlock {emitter : Emitter} {post : Except GenerateError Fragment → Prop}
    (hemitter : Dictionary.get? g.emitters b.type = some emitter)
    (hleads : (emitter b g.indent).run.Leads (numberMoves g b) (fun result _ => post result) ())
    (c : Context) : post (g.emitBlock b c).result := by
  let view : Pass → Unit := fun _ => ()
  have htracks : ∀ (query : Query) (pass : Pass), numberMoves g b query (view pass)
      ((g.answer b (Dictionary.mapValues g.resolve b.inputs) query).run pass).1
      (view ((g.answer b (Dictionary.mapValues g.resolve b.inputs) query).run pass).2) := by
    intro query pass
    cases query <;> trivial
  unfold emitBlock
  rw [resolve_emitted, emit, hemitter]
  exact Program.Leads.run htracks hleads

/-- A block that is emitted and has the name of a built-in type is of that type. -/
theorem Plain.builtin_of_result (hplain : g.Plain) {e : Builtin} (he : e ∈ builtins)
    (htype : b.type = e.spec.type) {c : Context} {f : Fragment}
    (h : (g.emitBlock b c).result = .ok f) :
    g.registry.get? b.type = some (e.named b.type) ∧
      Dictionary.get? g.emitters b.type = some e.emitter := by
  rcases hplain b.type with ⟨-, hnone⟩ | ⟨e', he', hname, hregistered, hemitter⟩
  · unfold emitBlock at h
    rw [resolve_emitted, emit, hnone] at h
    cases h
  · obtain rfl := builtin_eq_of_type he' he (hname.trans htype)
    exact ⟨hregistered, hemitter⟩

/-- The number of a number block is finite, and the code of the block is its literal. -/
theorem emitted_number (hplain : g.Plain) (htype : b.type = "math_number")
    (hemits : ∀ c, ∃ f, (g.emitBlock b c).result = .ok f) :
    ∃ x, g.fieldNumber b "NUM" = .ok x ∧ x.isFinite = true ∧
      ∀ c, (g.emitBlock b c).result =
        .ok (.expression (number x) (if x < 0 then .unarySign else .atomic)) := by
  obtain ⟨f, hf⟩ := hemits (Context.withIndent g.indent)
  obtain ⟨hregistered, hemitter⟩ := hplain.builtin_of_result
    (e := ⟨Catalog.mathNumber, Emitters.mathNumber⟩) (by simp [builtins]) htype hf
  have hresult := result_emitBlock hemitter (leads_mathNumber (g := g) (b := b) g.indent)
  obtain ⟨x, hx, -⟩ := hresult _ f hf
  refine ⟨x, hx, ?_, fun c => ?_⟩
  · have hslot : Catalog.mathNumber.slot? "NUM" = some ⟨"NUM", .number 0 none none⟩ := rfl
    obtain ⟨value, -, hfinite, hclamp⟩ := fieldNumber_eq_ok hregistered hslot hx
    rw [hclamp]
    exact hfinite
  · obtain ⟨f', hf'⟩ := hemits c
    obtain ⟨x', hx', rfl⟩ := hresult c f' hf'
    rw [hx] at hx'
    cases hx'
    exact hf'

/-- The interval of a task is finite and not less than one. The code of the task is its
    function with that interval. -/
theorem emitted_interval (hplain : g.Plain) (htype : b.type = taskType)
    (hemits : ∀ c, ∃ f, (g.emitBlock b c).result = .ok f) :
    ∃ x, g.fieldNumber b "INTERVAL" = .ok x ∧ x.isFinite = true ∧ 1 ≤ x ∧
      ∀ c, ∃ name body, (g.emitBlock b c).result =
        .ok (.statement (Emitters.taskFunction name g.indent body x)) := by
  obtain ⟨f, hf⟩ := hemits (Context.withIndent g.indent)
  obtain ⟨hregistered, hemitter⟩ := hplain.builtin_of_result
    (e := ⟨Catalog.taskDefinition, Emitters.taskDefinition⟩) (by simp [builtins]) htype hf
  have hresult := result_emitBlock hemitter (leads_interval (g := g) (b := b) g.indent)
  obtain ⟨x, -, -, hx, -⟩ := hresult _ f hf
  have hslot : Catalog.taskDefinition.slot? "INTERVAL" =
      some ⟨"INTERVAL", .number 15 (some 1) none⟩ := rfl
  obtain ⟨value, -, hfinite, hclamp⟩ := fieldNumber_eq_ok hregistered hslot hx
  have hleast : ∀ bound ∈ some (1 : Float), bound.isFinite = true := by
    intro bound hbound
    cases hbound
    rfl
  have hx' : x.isFinite = true ∧ 1 ≤ x := by
    have hnumber := Numbers.isNaN_of_isFinite hfinite
    have hwithin : Within (some 1) none (clamp value (some 1) none) :=
      within_clamp (fun bound hbound => Numbers.isNaN_of_isFinite (hleast bound hbound))
        (by simp) hnumber (by simp)
    rw [hclamp]
    exact ⟨clamp_of hfinite hleast (by simp), hwithin.above 1 rfl⟩
  refine ⟨x, hx, hx'.1, hx'.2, fun c => ?_⟩
  obtain ⟨f', hf'⟩ := hemits c
  obtain ⟨x', name, body, hx', rfl⟩ := hresult c f' hf'
  rw [hx] at hx'
  cases hx'
  exact ⟨name, body, hf'⟩

/-- In a script that the default generator gives, whatever the width of its indentation, the
    number of every number block and the interval of every task in seconds are decimal
    literals. So are the milliseconds of an interval, up to the longest one. Those of a
    longer interval are the word for infinity. -/
theorem numbers_generate {width : Nat} {g : Generator}
    (built : (Builder.default.indentWidth width).build = .ok g) {w : Workspace}
    {script : String} (h : g.generate w = .ok script) :
    (∀ b ∈ g.registry.liveBlocks w, b.type = "math_number" →
        ∃ x, g.fieldNumber b "NUM" = .ok x ∧ IsDecimal (number x) ∧
          ∀ c, ∃ order, (g.emitBlock b c).result = .ok (.expression (number x) order)) ∧
      ∀ b ∈ g.registry.liveBlocks w, b.type = taskType →
        ∃ x, g.fieldNumber b "INTERVAL" = .ok x ∧ IsDecimal (number x) ∧
          (x ≤ longestInterval → IsDecimal (number (x * 1000))) ∧
          (¬x ≤ longestInterval → number (x * 1000) = "inf") ∧
          ∀ c, ∃ name body, (g.emitBlock b c).result =
            .ok (.statement (Emitters.taskFunction name g.indent body x)) := by
  obtain ⟨hplain, -⟩ := Builder.plain_of_build built
  constructor
  · intro b hb htype
    obtain ⟨x, hx, hfinite, hemitted⟩ :=
      emitted_number hplain htype (emits_of_live hplain.standard h hb)
    exact ⟨x, hx, isDecimal_number hfinite, fun c => ⟨_, hemitted c⟩⟩
  · intro b hb htype
    obtain ⟨x, hx, hfinite, hone, hemitted⟩ :=
      emitted_interval hplain htype (emits_of_live hplain.standard h hb)
    obtain ⟨hshort, hlong⟩ := mul_thousand hfinite hone
    exact ⟨x, hx, isDecimal_number hfinite, fun hle => isDecimal_number (hshort hle),
      fun hgt => number_of_infinity (hlong hgt), hemitted⟩

/-- The default generator, which indents by four blanks. -/
def fourBlanks : Generator :=
  ⟨⟨Catalog.default⟩, Emitters.default, (Builder.default.indentWidth 4).indent⟩

/-- A task with an interval. -/
def intervalTask (interval : Float) : Block :=
  ⟨"t", taskType, true, [("INTERVAL", .number interval)], [], none⟩

/-- The task with a number block beside it, which holds a text. -/
def intervalWorkspace (interval : Float) : Workspace :=
  ⟨[intervalTask interval, ⟨"n", "math_number", true, [("NUM", .text " -2.5 ")], [], none⟩]⟩

theorem plain_fourBlanks : fourBlanks.Plain :=
  (Builder.plain_of_build (Builder.build_default 4)).1

theorem exists_script_of_walk {w : Workspace} (h : fourBlanks.registry.walk w = .ok ()) :
    ∃ script, fourBlanks.generate w = .ok script := by
  rw [← verdict_generate plain_fourBlanks.standard w] at h
  exact verdict_eq_ok_iff.mp h

/-- An interval of five seconds is five thousand milliseconds, and a number may be given as
    a text. -/
theorem numbers_of_short_interval :
    (∃ script, fourBlanks.generate (intervalWorkspace 5) = .ok script) ∧
      IsDecimal (number (-2.5)) ∧ IsDecimal (number 5) ∧ IsDecimal (number (5 * 1000)) := by
  obtain ⟨script, h⟩ := exists_script_of_walk (w := intervalWorkspace 5) (by decide +kernel)
  obtain ⟨hnumbers, htasks⟩ := numbers_generate (Builder.build_default 4) h
  obtain ⟨x, hx, hnumber, -⟩ := hnumbers _ (.tail _ (.head _)) rfl
  obtain ⟨y, hy, hseconds, hshort, -⟩ := htasks (intervalTask 5) (.head _) rfl
  have hread : fourBlanks.fieldNumber
      ⟨"n", "math_number", true, [("NUM", .text " -2.5 ")], [], none⟩ "NUM" = .ok (-2.5) := by
    decide +kernel
  have hinterval : fourBlanks.fieldNumber (intervalTask 5) "INTERVAL" = .ok 5 := by
    decide +kernel
  obtain rfl : -2.5 = x := Except.ok.inj (hread.symm.trans hx)
  obtain rfl : 5 = y := Except.ok.inj (hinterval.symm.trans hy)
  exact ⟨⟨script, h⟩, hnumber, hseconds, hshort (by decide +kernel)⟩

/-- The field check accepts an interval of a 1 with 306 zeros, but the product is infinite,
    and the script calls for a name that is not defined. -/
theorem numbers_of_long_interval :
    (∃ script, fourBlanks.generate (intervalWorkspace 1e306) = .ok script) ∧
      intervalTask 1e306 ∈ fourBlanks.registry.liveBlocks (intervalWorkspace 1e306) ∧
      (∀ c, ∃ name body, (fourBlanks.emitBlock (intervalTask 1e306) c).result =
        .ok (.statement (Emitters.taskFunction name fourBlanks.indent body 1e306))) ∧
      number (1e306 * 1000) = "inf" ∧ ¬IsDecimal "inf" := by
  obtain ⟨script, h⟩ := exists_script_of_walk (w := intervalWorkspace 1e306) (by decide +kernel)
  have hlive : intervalTask 1e306 ∈
      fourBlanks.registry.liveBlocks (intervalWorkspace 1e306) := .head _
  obtain ⟨x, hx, -, -, hemitted⟩ := emitted_interval plain_fourBlanks rfl
    (emits_of_live plain_fourBlanks.standard h hlive)
  have hinterval : fourBlanks.fieldNumber (intervalTask 1e306) "INTERVAL" = .ok 1e306 := by
    decide +kernel
  obtain rfl : 1e306 = x := Except.ok.inj (hinterval.symm.trans hx)
  exact ⟨⟨script, h⟩, hlive, hemitted, by decide +kernel, not_isDecimal_inf⟩

end Generator

end PollScript
