import PollScript.Proofs.Denotation
import PollScript.Proofs.Walk

/-!
# Emitted values mean what their blocks stand for

The emitter of a value block puts code around the code of its inputs. If the code
of each input denotes what the input stands for, and has parentheses where its
place needs them, then the code of the block denotes what the block stands for.
So it does for every block tree, and an awaited poll in particular is never
looked into before it is awaited.

Results:

* `suits_of_splice`: code that is spliced into a place suits the place.
* `prints_builtins`: the emitter of every built-in value type makes code for what
  its block stands for.
* `emitBlock_parses`: the code of a value block parses to what the block stands
  for, and to nothing else.
-/

namespace PollScript

open Script

/-! ## Places -/

namespace Script.Order

/-- How tightly an expression of some form holds together. -/
def level : Order → Level
  | .atomic | .collection | .member | .functionCall => .primary
  | .await => .awaited
  | _ => .expression

/-- Whatever needs no parentheses in front of a point is tight. -/
theorem level_of_needsParens {order : Order} (h : order.needsParens .member = false) :
    order.level = .primary := by
  revert h
  cases order <;> decide

end Script.Order

/-- The code denotes the expression and may stand in a place that asks for the
    order. In front of a point, it is tight and does not end in a number. -/
structure Suits (outer : Order) (code : String) (e : Expr) : Prop where
  denotes : Denotes .expression code e
  /-- In front of a point it still does. -/
  tight : outer = .member → Denotes .primary code e ∧ EndsApart code

variable {code : String} {e : Expr} {order : Order}

theorem Denotes.suits (h : Denotes .expression code e) : Suits .none code e :=
  ⟨h, fun hmember => nomatch hmember⟩

theorem Closes.suits {outer : Order} (h : Closes .primary code e) : Suits outer code e :=
  ⟨h.denotes.ofLevel, fun _ => ⟨h.denotes, h.endsApart⟩⟩

/-- Code that is spliced into a place suits the place, if it does not end in a
    number where a point may follow. -/
theorem suits_of_splice {outer : Order} {default text : String} {child : Block}
    (hdenotes : Denotes .expression text e)
    (htight : outer = .member → Denotes order.level text e ∧ EndsApart text)
    (h : Generator.splice outer default child (.expression text order) = .ok code) :
    Suits outer code e := by
  obtain ⟨text', order', heq, hcases⟩ := Generator.splice_eq_ok h
  cases heq
  rcases hcases with ⟨hempty, -⟩ | ⟨-, -, rfl⟩ | ⟨-, hparens, rfl⟩
  · exact absurd hempty hdenotes.ne_empty
  · exact hdenotes.parens.suits
  · refine ⟨hdenotes, fun hmember => ?_⟩
    obtain ⟨hlevel, hends⟩ := htight hmember
    rw [hmember] at hparens
    rw [Order.level_of_needsParens hparens] at hlevel
    exact ⟨hlevel, hends⟩

/-! ## Emitters -/

/-- The fragment denotes what the block stands for. Only the code of a number may
    end in a number. -/
def Block.Prints (b : Block) (spec : BlockSpec) (f : Fragment) : Prop :=
  ∀ code order, f = .expression code order →
    ∃ e, b.expr? = some e ∧ Denotes .expression code e ∧
      (spec.output ≠ some (.tag "Number") → Denotes order.level code e ∧ EndsApart code)

/-- What the input of a slot stands for, by the blocks in the inputs. -/
def Block.inputMeans (b : Block) (slot : String) (default e : Expr) : Prop :=
  inputExpr? (Dictionary.mapValues Block.meant b.inputs) slot default = some e

/-- What an emitter may ask so that every value suits its place, and what it can
    rely on. A place in front of a point takes no numbers. -/
def printContract (b : Block) (spec : BlockSpec) : Contract where
  asks slot outer _ :=
    outer = .none ∨ (outer = .member ∧ spec.slot? slot = some (Catalog.resultSocket slot))
  does _ := True
  value slot outer default code := ∀ fallback, Suits outer default fallback →
    ∃ e, b.inputMeans slot fallback e ∧ Suits outer code e
  body _ _ := True
  text slot t :=
    (∀ default, spec.slot? slot = some ⟨slot, .text default⟩ → t = b.textOr slot default) ∧
    ∀ first rest, spec.slot? slot = some ⟨slot, .dropdown (first :: rest)⟩ →
      t = b.textOr slot first.2 ∧ t ∈ (first :: rest).map (·.2)
  number slot x := ∀ default, spec.slot? slot = some ⟨slot, .number default none none⟩ →
    Generator.readNumber b slot default = .ok x ∧ x.isFinite = true
  recorded _ := True

/-- The emitter keeps to the contract and makes code for what the block stands
    for. -/
def Script.Emit.Prints (b : Block) (spec : BlockSpec) (x : Emit Fragment) : Prop :=
  x.Meets (printContract b spec) (b.Prints spec)

/-- Code that closes may be of any kind. -/
theorem Closes.prints {b : Block} {spec : BlockSpec} (hexpr : b.expr? = some e)
    (h : Closes order.level code e) : b.Prints spec (.expression code order) := by
  intro code' order' heq
  cases heq
  exact ⟨e, hexpr, h.denotes.ofLevel, fun _ => ⟨h.denotes, h.endsApart⟩⟩

/-- A default that is a number. -/
theorem suits_number {numeral : String} (h : Spells 0 0 numeral [.number numeral]) :
    Suits .none numeral (.number numeral) :=
  Denotes.suits ⟨_, h, Derives.ofLevel (.number numeral)⟩

/-- A choice from numbers is a number. -/
theorem denotes_choice {options : List (String × String)} {t : String}
    (hoptions : ∀ option ∈ options, Spells 0 0 option.2 [.number option.2])
    (h : t ∈ options.map (·.2)) : Denotes .expression t (.number t) := by
  obtain ⟨option, hoption, rfl⟩ := List.mem_map.mp h
  exact ⟨_, hoptions option hoption, Derives.ofLevel (.number _)⟩

theorem suits_none : Suits .none Emitters.defaultNone .none :=
  Denotes.suits ⟨[.keyword "None"], by decide, Derives.ofLevel .none⟩

theorem suits_emptyDict : Suits .member Emitters.defaultData .emptyDict :=
  Closes.suits ⟨[.symbol '\x7b', .symbol '\x7d'], by decide, .emptyDict⟩

namespace Script.Emit

variable {b : Block} {spec : BlockSpec} {slot default : String} {f : String → Emit Fragment}

/-- A value for a place where anything may stand. -/
theorem prints_value {fallback : Expr} (hdefault : Suits .none default fallback)
    (rest : ∀ code e, b.inputMeans slot fallback e → Denotes .expression code e →
      (f code).Prints b spec) : (value slot .none default >>= f).Prints b spec := by
  refine .bind (.value (.inl rfl)) fun code hcode => ?_
  obtain ⟨e, hmeans, hsuits⟩ := hcode fallback hdefault
  exact rest code e hmeans hsuits.denotes

/-- A value for a place in front of a point. -/
theorem prints_data {fallback : Expr} (hslot : spec.slot? slot = some (Catalog.resultSocket slot))
    (hdefault : Suits .member default fallback)
    (rest : ∀ code e, b.inputMeans slot fallback e → Denotes .primary code e → EndsApart code →
      (f code).Prints b spec) : (value slot .member default >>= f).Prints b spec := by
  refine .bind (.value (.inr ⟨rfl, hslot⟩)) fun code hcode => ?_
  obtain ⟨e, hmeans, hsuits⟩ := hcode fallback hdefault
  obtain ⟨hdenotes, hends⟩ := hsuits.tight rfl
  exact rest code e hmeans hdenotes hends

end Script.Emit

namespace Emitters

open Script.Emit

variable {b : Block} (indent : String)

/-- The arguments in front of the others for a device, in the connections that
    take them. -/
theorem prints_device {spec : BlockSpec} {f : String → String → String → String → Emit Fragment}
    (rest : ∀ timeout slaveId startAddress count device,
      Block.deviceExprs? (Dictionary.mapValues Block.meant b.inputs) = some device →
      List.Forall₂ Names [("timeout", timeout), ("slave_id", slaveId),
        ("start_address", startAddress), ("count", count)] device →
      (f timeout slaveId startAddress count).Prints b spec) :
    Emit.Prints b spec (do
      let timeout ← Emit.value "TIMEOUT" .none defaultTimeout
      let slaveId ← Emit.value "SLAVE_ID" .none defaultSlaveId
      let startAddress ← Emit.value "START_ADDRESS" .none defaultStartAddress
      let count ← Emit.value "COUNT" .none defaultCount
      f timeout slaveId startAddress count) := by
  have htimeout : Suits .none defaultTimeout (.number "3.0") := suits_number (by decide)
  have hslaveId : Suits .none defaultSlaveId (.number "1") := suits_number (by decide)
  have hstartAddress : Suits .none defaultStartAddress (.number "0") := suits_number (by decide)
  have hcount : Suits .none defaultCount (.number "2") := suits_number (by decide)
  refine prints_value htimeout fun timeout e₁ htimeout h₁ => ?_
  refine prints_value hslaveId fun slaveId e₂ hslaveId h₂ => ?_
  refine prints_value hstartAddress fun startAddress e₃ hstartAddress h₃ => ?_
  refine prints_value hcount fun count e₄ hcount h₄ => ?_
  refine rest timeout slaveId startAddress count [("timeout", e₁), ("slave_id", e₂),
    ("start_address", e₃), ("count", e₄)] ?_ ?_
  · rw [Block.deviceExprs?, htimeout, hslaveId, hstartAddress, hcount]
    rfl
  · exact .cons (h₁.names (by decide)) (.cons (h₂.names (by decide))
      (.cons (h₃.names (by decide)) (.cons (h₄.names (by decide)) .nil)))

theorem prints_serialConfig {type title tooltip className : String}
    (hexpr : b.expr? = b.serialExpr? (Dictionary.mapValues Block.meant b.inputs) className)
    (hclass : Spells 0 0 className [.name className]) (hindent : ∀ c ∈ indent.toList, c = ' ') :
    (serialConfig className b indent).Prints b (Catalog.serialConfig type title tooltip) := by
  have hport : Suits .none defaultPort (.text "COM4") :=
    Denotes.suits ⟨[.text "COM4"], by decide, Derives.ofLevel (.text _)⟩
  have hbytesize : Suits .none defaultBytesize (.number "8") := suits_number (by decide)
  have hstopbits : Suits .none defaultStopbits (.number "1") := suits_number (by decide)
  refine .bind (.perform trivial) fun _ _ => ?_
  refine prints_value hport fun port e₁ hport h₁ => ?_
  refine .bind .fieldText fun baudrate hbaudrate => ?_
  refine prints_value hbytesize fun bytesize e₂ hbytesize h₂ => ?_
  refine .bind .fieldText fun parity hparity => ?_
  refine prints_value hstopbits fun stopbits e₃ hstopbits h₃ => ?_
  refine prints_device fun timeout slaveId startAddress count device hdevice hnames => ?_
  refine .bind .fieldText fun functionCode hfunctionCode => .pure ?_
  obtain ⟨hbaudrate, hrate⟩ := hbaudrate.2 _ _ rfl
  obtain ⟨hparity, -⟩ := hparity.2 _ _ rfl
  obtain ⟨hfunctionCode, hcode⟩ := hfunctionCode.2 _ _ rfl
  have hvalue : b.expr? = some (.call (.name className) []
      ([("port", e₁), ("baudrate", .number baudrate), ("bytesize", e₂), ("parity", .text parity),
        ("stopbits", e₃)] ++ device ++ [("function_code", .number functionCode)])) := by
    rw [hexpr, Block.serialExpr?, hport, hbytesize, hstopbits, hdevice, hbaudrate, hparity,
      hfunctionCode]
    rfl
  have hline : List.Forall₂ Names
      [("port", port), ("baudrate", baudrate), ("bytesize", bytesize), ("parity", quote parity),
        ("stopbits", stopbits)]
      [("port", e₁), ("baudrate", .number baudrate), ("bytesize", e₂), ("parity", .text parity),
        ("stopbits", e₃)] := by
    refine .cons (h₁.names (by decide)) ?_
    refine .cons ((denotes_choice (by decide) hrate).names (by decide)) ?_
    refine .cons (h₂.names (by decide)) ?_
    refine .cons ((denotes_quote parity).denotes.ofLevel.names (by decide)) ?_
    exact .cons (h₃.names (by decide)) .nil
  have hrequest : List.Forall₂ Names [("function_code", functionCode)]
      [("function_code", .number functionCode)] :=
    .cons ((denotes_choice (by decide) hcode).names (by decide)) .nil
  have hcall := closes_callWithKeywords hclass hindent
    (List.rel_append (List.rel_append hline hnames) hrequest)
  exact hcall.prints hvalue

theorem prints_tcpConfig (htype : b.type = "TCP_config")
    (hindent : ∀ c ∈ indent.toList, c = ' ') :
    (tcpConfig b indent).Prints b Catalog.tcpConfig := by
  have hhost : Suits .none defaultHost (.text "127.0.0.1") :=
    Denotes.suits ⟨[.text "127.0.0.1"], by decide, Derives.ofLevel (.text _)⟩
  have hport : Suits .none defaultNetworkPort (.number "502") := suits_number (by decide)
  refine .bind (.perform trivial) fun _ _ => ?_
  refine prints_value hhost fun host e₁ hhost h₁ => ?_
  refine prints_value hport fun port e₂ hport h₂ => ?_
  refine prints_device fun timeout slaveId startAddress count device hdevice hnames => ?_
  refine .bind .fieldText fun functionCode hfunctionCode => .pure ?_
  obtain ⟨hfunctionCode, hcode⟩ := hfunctionCode.2 _ _ rfl
  have hvalue : b.expr? = some (.call (.name "TCPConfig") []
      ([("host", e₁), ("port", e₂)] ++ device ++
        [("function_code", .number functionCode)])) := by
    rw [Block.expr?_eq, Block.exprOf?, htype]
    show Block.networkExpr? _ _ = _
    rw [Block.networkExpr?, hhost, hport, hdevice, hfunctionCode]
    rfl
  have hline : List.Forall₂ Names [("host", host), ("port", port)]
      [("host", e₁), ("port", e₂)] :=
    .cons (h₁.names (by decide)) (.cons (h₂.names (by decide)) .nil)
  have hrequest : List.Forall₂ Names [("function_code", functionCode)]
      [("function_code", .number functionCode)] :=
    .cons ((denotes_choice (by decide) hcode).names (by decide)) .nil
  have hclass : Spells 0 0 "TCPConfig" [.name "TCPConfig"] := by decide
  have hcall := closes_callWithKeywords hclass hindent
    (List.rel_append (List.rel_append hline hnames) hrequest)
  exact hcall.prints hvalue

theorem prints_pullData (htype : b.type = "modbus_pull_data") :
    (pullData b indent).Prints b Catalog.pullData := by
  refine .bind (.perform trivial) fun _ _ => ?_
  refine .bind .recorded fun recorded _ => ?_
  have hrest : (Emit.value "CONFIG" .none defaultNone >>= fun config => pure
      (.expression ("await pull_data_async(" ++ config ++ ")") .await)).Prints b
      Catalog.pullData := by
    refine prints_value suits_none fun config e hmeans hconfig => .pure ?_
    have hexpr : b.expr? = some (.await (.call (.name "pull_data_async") [e] [])) := by
      rw [Block.expr?_eq, Block.exprOf?, htype]
      show Block.pollExpr? _ = _
      rw [Block.pollExpr?, hmeans]
      rfl
    have hfront : Lexes 0 1 "pull_data_async(" ([.name "pull_data_async"] ++ [.symbol '(']) := by
      decide
    have hcall := closes_positional hfront (.name _) (.cons hconfig .nil)
    rw [String.intercalate_singleton] at hcall
    have hawait := hcall.await
    rw [← String.append_assoc, ← String.append_assoc] at hawait
    exact hawait.prints hexpr
  dsimp only
  split
  · exact .bind .report fun _ _ => hrest
  · exact hrest

theorem prints_getField (htype : b.type = "modbus_get_field") :
    (getField b indent).Prints b Catalog.getField := by
  refine .bind .fieldText fun field hfield => ?_
  refine prints_data rfl suits_emptyDict fun data d hmeans hdata hends => .pure ?_
  obtain ⟨hchoice, -⟩ := hfield.2 _ _ rfl
  have hexpr : b.expr? = some (.call (.member d "get") [.text field] []) := by
    rw [Block.expr?_eq, Block.exprOf?, htype]
    show Block.partExpr? _ _ = _
    rw [Block.partExpr?, hmeans, hchoice]
    rfl
  have hcall := closes_get hdata hends (.cons (denotes_quote field).denotes.ofLevel .nil)
  rw [String.intercalate_singleton] at hcall
  exact hcall.prints hexpr

theorem prints_getRegister (htype : b.type = "modbus_get_register") :
    (getRegister b indent).Prints b Catalog.getRegister := by
  have hzero : Suits .none defaultNumber (.number "0") := suits_number (by decide)
  refine prints_value hzero fun index i hindex hi => ?_
  refine prints_data rfl suits_emptyDict fun data d hdata hd hends => .pure ?_
  have hexpr : b.expr? = some (.subscript
      (.call (.member d "get") [.text "registers", .emptyList] []) i) := by
    rw [Block.expr?_eq, Block.exprOf?, htype]
    show Block.registerExpr? _ = _
    rw [Block.registerExpr?, hindex, hdata]
    rfl
  have hname : Denotes .expression "\"registers\"" (.text "registers") :=
    ⟨[.text "registers"], by decide, Derives.ofLevel (.text _)⟩
  have hempty : Denotes .expression "[]" .emptyList :=
    ⟨[.symbol '[', .symbol ']'], by decide, Derives.ofLevel .emptyList⟩
  have hcall := (closes_get hd hends (.cons hname (.cons hempty .nil))).subscript hi
  have hcode : data ++ ".get(\"registers\", [])[" ++ index ++ "]" =
      data ++ ".get(" ++ ", ".intercalate ["\"registers\"", "[]"] ++ ")" ++ "[" ++
        index ++ "]" := by
    rw [show ".get(\"registers\", [])[" =
      ".get(" ++ ", ".intercalate ["\"registers\"", "[]"] ++ ")" ++ "[" by decide]
    simp only [String.append_assoc]
  rw [hcode]
  exact hcall.prints hexpr

theorem prints_getLimiter (htype : b.type = "modbus_get_limiter") :
    (getLimiter b indent).Prints b Catalog.getLimiter := by
  refine .bind (.perform trivial) fun _ _ => ?_
  refine .bind .fieldText fun name hname => .pure ?_
  have hexpr : b.expr? = some (.call (.name "get_limiter") [.text name] []) := by
    rw [Block.expr?_eq, Block.exprOf?, htype, hname.1 _ rfl]
    rfl
  have hfront : Lexes 0 1 "get_limiter(" ([.name "get_limiter"] ++ [.symbol '(']) := by decide
  have hcall := closes_positional hfront (.name _)
    (.cons (denotes_quote name).denotes.ofLevel .nil)
  rw [String.intercalate_singleton] at hcall
  exact hcall.prints hexpr

theorem prints_alarmEvaluator (htype : b.type = "modbus_alarm_evaluator") :
    (alarmEvaluator b indent).Prints b Catalog.alarmEvaluator := by
  refine .bind (.perform trivial) fun _ _ => ?_
  have hzero : Suits .none defaultNumber (.number "0") := suits_number (by decide)
  refine prints_value hzero fun reading r hreading hr => ?_
  refine prints_value hzero fun lv1 e₁ hlv1 h₁ => ?_
  refine prints_value hzero fun lv2 e₂ hlv2 h₂ => ?_
  refine prints_value hzero fun lv3 e₃ hlv3 h₃ => .pure ?_
  have hexpr : b.expr? = some (.call (.name "evaluate_alarm") [r, e₁, e₂, e₃] []) := by
    rw [Block.expr?_eq, Block.exprOf?, htype]
    show Block.alarmExpr? _ = _
    rw [Block.alarmExpr?, hreading, hlv1, hlv2, hlv3]
    rfl
  have hfront : Lexes 0 1 (Alarm.helperName ++ "(")
      ([.name "evaluate_alarm"] ++ [.symbol '(']) := by
    decide
  have hcall := closes_positional hfront (.name _)
    (.cons hr (.cons h₁ (.cons h₂ (.cons h₃ .nil))))
  exact hcall.prints hexpr

theorem prints_text (htype : b.type = "text") : (text b indent).Prints b Catalog.text := by
  refine .bind .fieldText fun t ht => .pure ?_
  have hexpr : b.expr? = some (.text t) := by
    rw [Block.expr?_eq, Block.exprOf?, htype, ht.1 _ rfl]
    rfl
  exact (denotes_quote t).prints hexpr

theorem prints_mathNumber (htype : b.type = "math_number") :
    (mathNumber b indent).Prints b Catalog.mathNumber := by
  refine .bind .fieldNumber fun x hx => .pure ?_
  obtain ⟨hread, hfinite⟩ := hx _ rfl
  obtain ⟨e, he, hdenotes⟩ := denotes_number hfinite
  have hexpr : b.expr? = some e := by
    rw [Block.expr?_eq, Block.exprOf?, htype]
    show b.numberExpr? = _
    rw [Block.numberExpr?, hread]
    exact he
  intro code order heq
  cases heq
  -- only here the code may end in a number
  exact ⟨_, hexpr, hdenotes, fun hkind => absurd rfl hkind⟩

theorem prints_variablesGet (htype : b.type = "variables_get") :
    (variablesGet b indent).Prints b Catalog.variablesGet := by
  refine .bind .fieldText fun name hname => .pure ?_
  have hexpr : b.expr? = some (.name (identifier name)) := by
    rw [Block.expr?_eq, Block.exprOf?, htype, hname.1 _ rfl]
    rfl
  intro code order heq
  cases heq
  have hdenotes := denotes_identifier name
  exact ⟨_, hexpr, hdenotes.ofLevel, fun _ => ⟨hdenotes, endsApart_identifier name⟩⟩

end Emitters

/-- The emitter of every built-in value type makes code for what its block stands
    for. -/
theorem prints_builtins {e : Builtin} (h : e ∈ builtins) (hvalue : e.spec.isValueBlock = true)
    {b : Block} (htype : e.spec.type = b.type) {indent : String}
    (hindent : ∀ c ∈ indent.toList, c = ' ') : (e.emitter b indent).Prints b e.spec := by
  simp only [builtins, List.mem_cons, List.not_mem_nil, or_false] at h
  rcases h with rfl | rfl | rfl | rfl | rfl | rfl | rfl | rfl | rfl | rfl | rfl | rfl | rfl |
    rfl | rfl | rfl
  · refine Emitters.prints_serialConfig indent ?_ (by decide) hindent
    rw [Block.expr?_eq, Block.exprOf?, ← htype]
    rfl
  · refine Emitters.prints_serialConfig indent ?_ (by decide) hindent
    rw [Block.expr?_eq, Block.exprOf?, ← htype]
    rfl
  · exact Emitters.prints_tcpConfig indent htype.symm hindent
  · exact Emitters.prints_pullData indent htype.symm
  · cases hvalue
  · exact Emitters.prints_getField indent htype.symm
  · cases hvalue
  · exact Emitters.prints_getRegister indent htype.symm
  · exact Emitters.prints_getLimiter indent htype.symm
  · cases hvalue
  · exact Emitters.prints_alarmEvaluator indent htype.symm
  · cases hvalue
  · exact Emitters.prints_text indent htype.symm
  · exact Emitters.prints_mathNumber indent htype.symm
  · cases hvalue
  · exact Emitters.prints_variablesGet indent htype.symm

/-! ## Blocks -/

namespace Generator

variable {g : Generator} {b : Block}

/-- A value that fits a place in front of a point is no number. -/
theorem not_number_of_fits {output : Output} (h : output.fits (some ["Array", "Object"]) = true) :
    output ≠ .tag "Number" := by
  rintro rfl
  revert h
  decide

/-- The answer to a question for a value suits its place and denotes what the
    input stands for, if the code of the connected block denotes what that block
    stands for. -/
theorem ensures_suits {e : Builtin} (htype : g.registry.get? b.type = some (e.named b.type))
    {slot default : String} {outer : Order}
    (hasks : (printContract b e.spec).asks slot outer default)
    (hchild : ∀ child, b.input? slot = some child →
      Generation.Ensures (fun _ => True)
        (fun f => ∀ spec, g.specOf child = .ok spec → child.Prints spec f)
        (g.resolve child).emitted) :
    Generation.Ensures (fun _ => True) ((printContract b e.spec).value slot outer default)
      (g.valueOf b slot outer default ((b.input? slot).map g.resolve)) := by
  refine (g.ensures_valueOf (fun child f =>
    ∀ spec, g.specOf child.block = .ok spec → child.block.Prints spec f)
    fun child hsupplier => ?_).mono ?_
  · obtain ⟨c, hc, rfl⟩ := Option.map_eq_some_iff.mp (g.supplier_eq_some hsupplier).1
    rw [resolve_block]
    exact hchild c hc
  · rintro code (⟨hnone, rfl⟩ | ⟨child, f, hsupplier, hf, hsplice⟩) fallback hfallback
    · -- without an enabled block, the input stands for the default
      refine ⟨fallback, ?_, hfallback⟩
      rw [Block.inputMeans, Block.inputExpr?_eq]
      cases hinput : b.input? slot with
      | none => rfl
      | some c =>
        have hdisabled := g.supplier_eq_none hnone (g.resolve c) (by rw [hinput]; rfl)
        rw [resolve_block] at hdisabled
        show (if c.enabled then _ else _) = _
        rw [hdisabled]
        rfl
    · obtain ⟨hconnected, henabled, check, spec, output, hkind, hspec, houtput, hfits⟩ :=
        g.supplier_eq_some hsupplier
      obtain ⟨c, hinput, rfl⟩ := Option.map_eq_some_iff.mp hconnected
      rw [resolve_block] at henabled hspec hf
      obtain ⟨text, order, rfl, -⟩ := splice_eq_ok hsplice
      obtain ⟨e', hexpr, hdenotes, htight⟩ := hf spec hspec text order rfl
      refine ⟨e', ?_, suits_of_splice hdenotes (fun hmember => htight ?_) hsplice⟩
      · rw [Block.inputMeans, Block.inputExpr?_eq, hinput]
        show (if c.enabled then _ else _) = _
        rw [henabled]
        exact hexpr
      · -- the slot only takes what no number fits
        have hslot : e.spec.slot? slot = some (Catalog.resultSocket slot) := by
          rcases hasks with hnone | ⟨-, hslot⟩
          · rw [hnone] at hmember
            cases hmember
          · exact hslot
        have hkind' := hkind.symm.trans (slotKind_of_slot? htype hslot)
        cases hkind'
        rw [houtput]
        exact fun heq => not_number_of_fits hfits (Option.some.inj heq)

/-- The code that a block is emitted to denotes what the block stands for. -/
theorem ensures_prints (hplain : g.Plain) (hindent : ∀ c ∈ g.indent.toList, c = ' ')
    (b : Block) :
    Generation.Ensures (fun _ => True) (fun f => ∀ spec, g.specOf b = .ok spec → b.Prints spec f)
      (g.resolve b).emitted := by
  refine (g.ensures_resolve (fun b f => ∀ spec, g.specOf b = .ok spec → b.Prints spec f)
    (fun _ => True) trivial (fun _ _ _ _ => trivial) (fun _ _ _ => trivial) ?_ b).1
  intro b inputs
  rcases hplain b.type with ⟨-, hemitter⟩ | ⟨e, he, hname, htype, hemitter⟩
  · rw [resolve_emitted]
    unfold emit
    rw [hemitter]
    exact .throw
  have hspec : ∀ spec, g.specOf b = .ok spec → spec = e.spec := by
    intro spec hspec
    rw [specOf, htype, ← hname] at hspec
    exact (Except.ok.inj hspec).symm
  cases hvalue : e.spec.isValueBlock with
  | false =>
    -- a statement is no expression
    intro pass _
    refine ⟨trivial, fun f hf spec hspec' code order heq => ?_⟩
    have hkind := ((follows hplain.standard b).1 pass).2 f hf spec hspec'
    rw [hspec spec hspec', hvalue, heq] at hkind
    cases hkind
  | true =>
    have hemitted : Generation.Ensures (fun _ => True) (b.Prints e.spec) (g.resolve b).emitted := by
      refine g.ensures_emitted (printContract b e.spec) ?_ ?_ ?_ ?_ ?_ ?_ ?_ ?_
      · exact fun slot outer default hasks =>
          ensures_suits htype hasks fun child hchild => (inputs slot child hchild).1
      · intro slot
        refine (g.ensures_bodyOf (fun _ _ => True) fun first hfirst => ?_).mono
          fun _ _ => trivial
        obtain ⟨c, hc, rfl⟩ := Option.map_eq_some_iff.mp hfirst
        exact (inputs slot c hc).2
      · exact fun slot t ht => ⟨fun default hslot => fieldText_eq_text htype hslot ht,
          fun first rest hslot => fieldText_eq_choice htype hslot ht⟩
      · intro slot x hx default hslot
        obtain ⟨value, hread, hfinite, rfl⟩ := fieldNumber_eq_ok htype hslot hx
        exact ⟨hread, hfinite⟩
      · exact fun _ _ => trivial
      · exact fun _ _ _ _ => trivial
      · exact fun _ _ _ => trivial
      · intro emitter hfound
        rw [hemitter] at hfound
        cases hfound
        exact prints_builtins he hvalue hname hindent
    refine hemitted.mono fun f hf spec hspec' => ?_
    rw [hspec spec hspec']
    exact hf

/-- Whenever the default generator emits a value block, the code is an expression,
    and it parses to what the block stands for and to nothing else. -/
theorem emitBlock_parses {width : Nat} {g : Generator}
    (built : (Builder.default.indentWidth width).build = .ok g) {b : Block} {spec : BlockSpec}
    (registered : g.registry.get? b.type = some spec) (value : spec.isValueBlock = true)
    {context : Context} {f : Fragment} (emitted : (g.emitBlock b context).result = .ok f) :
    ∃ code order e, f = .expression code order ∧ b.expr? = some e ∧
      ∀ e', Parses code e' ↔ e' = e := by
  obtain ⟨hplain, hspaces⟩ := Builder.plain_of_build built
  have hindent : ∀ c ∈ g.indent.toList, c = ' ' := by
    intro c hc
    rw [hspaces] at hc
    simp only [Builder.indentWidth, String.toList_ofList] at hc
    exact List.eq_of_mem_replicate hc
  have hspec : g.specOf b = .ok spec := by
    rw [specOf, registered]
  have hkind := ((follows hplain.standard b).1 ⟨context, []⟩).2 f emitted spec hspec
  have hprints := (ensures_prints hplain hindent b ⟨context, []⟩ trivial).2 f emitted spec hspec
  rw [value] at hkind
  cases f with
  | statement code => cases hkind
  | expression code order =>
    obtain ⟨e, hexpr, hdenotes, -⟩ := hprints code order rfl
    exact ⟨code, order, e, rfl, hexpr, parses_iff hdenotes⟩

/-- A poll that is looked into stands in parentheses, so that it is awaited
    first. -/
theorem emitBlock_awaited_poll :
    (Generator.emitBlock
      ⟨⟨Catalog.default⟩, Emitters.default, (Builder.default.indentWidth 4).indent⟩
      ⟨"b1", "modbus_get_field", true, [],
        [("DATA", ⟨"b2", "modbus_pull_data", true, [], [], none⟩)], none⟩
      (Context.withIndent "    ")).result =
        .ok (.expression "(await pull_data_async(None)).get(\"raw\")" .functionCall) ∧
    ∀ e, Parses "(await pull_data_async(None)).get(\"raw\")" e ↔
      e = .call (.member (.await (.call (.name "pull_data_async") [.none] [])) "get")
        [.text "raw"] [] := by
  have hemitted : (Generator.emitBlock
      ⟨⟨Catalog.default⟩, Emitters.default, (Builder.default.indentWidth 4).indent⟩
      ⟨"b1", "modbus_get_field", true, [],
        [("DATA", ⟨"b2", "modbus_pull_data", true, [], [], none⟩)], none⟩
      (Context.withIndent "    ")).result =
        .ok (.expression "(await pull_data_async(None)).get(\"raw\")" .functionCall) := rfl
  have hregistered : Registry.get? ⟨Catalog.default⟩ "modbus_get_field" =
      some Catalog.getField := rfl
  refine ⟨hemitted, ?_⟩
  obtain ⟨code, order, e, hcode, hexpr, hparses⟩ :=
    emitBlock_parses (Builder.build_default 4) hregistered rfl hemitted
  obtain ⟨rfl, -⟩ := Fragment.expression.inj hcode
  rw [← Option.some.inj hexpr] at hparses
  exact hparses

end Generator

end PollScript
