import PollScript.Proofs.Fields
import PollScript.Proofs.Lockstep
import PollScript.Proofs.TaskNames
import PollScript.Proofs.Variation

/-!
# Parallel emitters

Two passes run over block graphs of one shape. They vary in the width of their
indentation, in the names of block types, and in the texts of the fields that only end up
in string literals.

The emitter of each built-in type goes in step with itself in two such passes. It asks for
the same slots, does the same to both contexts, and makes alike code of alike parts. A text
that varies is only ever put between quotes.

Results:

* `Variation.Expressions.callWithKeywords`, `Variation.Statements.taskFunction`,
  `Variation.Statements.helperDefinition`: code with indentation of its own is alike.
* `Variation.parallel_builtins`: the emitter of every built-in type makes alike code of
  alike parts.
-/

namespace PollScript

open Script

/-- The error with another name for the type that it names. -/
def Script.GenerateError.mapType (rename : String → String) : GenerateError → GenerateError
  | .unknownBlockType block type => .unknownBlockType block (rename type)
  | .notAValueBlock block type => .notAValueBlock block (rename type)
  | .notAStatementBlock block type => .notAStatementBlock block (rename type)
  | .noPreviousConnection block type => .noPreviousConnection block (rename type)
  | .incompatibleConnection block slot found accepted =>
    .incompatibleConnection block slot found accepted
  | .unknownSlot block type slot => .unknownSlot block (rename type) slot
  | .invalidFieldValue block slot detail => .invalidFieldValue block slot detail

@[simp] theorem Script.GenerateError.mapType_id (e : GenerateError) : e.mapType id = e := by
  cases e <;> rfl

/-- The fields whose texts only ever stand in string literals, each with its type. -/
def literalFields : List (String × String) :=
  [("text", "TEXT"), ("modbus_get_limiter", "LIMITER_NAME"), ("modbus_dcp_update", "NAME")]

namespace Variation

variable (v : Variation)

/-! ## Fragments and answers -/

/-- Fragments of one kind with alike code. -/
inductive Fragments : Fragment → Fragment → Prop
  | expression {code code' : String} (order : Order) (h : v.Expressions code code') :
      Fragments (.expression code order) (.expression code' order)
  | statement {code code' : String} (h : v.Statements code code') :
      Fragments (.statement code) (.statement code')

/-- The texts of a field are the same, or they only ever stand in string literals. The
    text of a choice is one of the options. -/
def FieldTexts (spec : BlockSpec) (slot t t' : String) : Prop :=
  (t = t' ∨ ((spec.type, slot) ∈ literalFields ∧ v.Texts t t')) ∧
    ∀ first rest, spec.slot? slot = some ⟨slot, .dropdown (first :: rest)⟩ →
      t ∈ (first :: rest).map (·.2)

/-- What emitters of a built-in type may do in step, and what they can rely on. -/
def correspondence (spec : BlockSpec) : Correspondence where
  translate := GenerateError.mapType v.rename
  asks _ _ default := v.Expressions default default
  does := v.Operations
  value := v.Expressions
  body := v.Statements
  text := v.FieldTexts spec
  recorded r r' := r.tasks = r'.tasks ∧ r.inTask = r'.inTask

/-- The emitters go in step and make alike code. -/
def Parallel (spec : BlockSpec) (x y : Emit Fragment) : Prop :=
  Emit.Coupled (v.correspondence spec) v.Fragments x y

variable {v} {spec : BlockSpec} {slot t t' : String}

theorem FieldTexts.texts (h : v.FieldTexts spec slot t t') : v.Texts t t' := by
  rcases h.1 with rfl | ⟨-, h⟩
  · exact v.same t
  · exact h

theorem FieldTexts.eq (h : v.FieldTexts spec slot t t') (hslot : slot ∉ literalFields.map (·.2)) :
    t = t' :=
  h.1.resolve_right fun ⟨hmem, _⟩ => hslot (List.mem_map_of_mem hmem)

/-- A choice is the same, and its code may stand anywhere if the codes of all options
    may. -/
theorem FieldTexts.expressions {first : String × String} {rest : List (String × String)}
    (h : v.FieldTexts spec slot t t') (hslot : slot ∉ literalFields.map (·.2))
    (hkind : spec.slot? slot = some ⟨slot, .dropdown (first :: rest)⟩)
    (hoptions : ∀ option ∈ first :: rest, ∀ m, Text.lay m option.2.toList = some false) :
    v.Expressions t t' := by
  obtain rfl := h.eq hslot
  obtain ⟨option, hoption, rfl⟩ := List.mem_map.mp (h.2 first rest hkind)
  exact .text (hoptions option hoption)

theorem Parallel.value {default : String} {outer : Order} {f g : String → Emit Fragment}
    (hdefault : v.Expressions default default)
    (rest : ∀ code code', v.Expressions code code' → v.Parallel spec (f code) (g code')) :
    v.Parallel spec (Emit.value slot outer default >>= f)
      (Emit.value slot outer default >>= g) :=
  .bind (.value hdefault) rest

theorem Parallel.fieldText {f g : String → Emit Fragment}
    (rest : ∀ t t', v.FieldTexts spec slot t t' → v.Parallel spec (f t) (g t')) :
    v.Parallel spec (Emit.fieldText slot >>= f) (Emit.fieldText slot >>= g) :=
  .bind .fieldText rest

theorem Parallel.fieldNumber {f g : Float → Emit Fragment}
    (rest : ∀ x, v.Parallel spec (f x) (g x)) :
    v.Parallel spec (Emit.fieldNumber slot >>= f) (Emit.fieldNumber slot >>= g) :=
  .bind .fieldNumber fun x _ heq => heq ▸ rest x

theorem Parallel.recorded {f g : Context.Recorded → Emit Fragment}
    (rest : ∀ r r' : Context.Recorded, r.tasks = r'.tasks → r.inTask = r'.inTask →
      v.Parallel spec (f r) (g r')) :
    v.Parallel spec (Emit.recorded >>= f) (Emit.recorded >>= g) :=
  .bind .recorded fun r r' ⟨htasks, hinTask⟩ => rest r r' htasks hinTask

theorem Parallel.perform {operation operation' : Context.Operation} {f g : Unit → Emit Fragment}
    (hdoes : v.Operations operation operation') (rest : v.Parallel spec (f ()) (g ())) :
    v.Parallel spec (Emit.perform operation >>= f) (Emit.perform operation' >>= g) :=
  .bind (.perform hdoes) fun _ _ _ => rest

theorem Parallel.report {event event' : Event} {f g : Unit → Emit Fragment}
    (rest : v.Parallel spec (f ()) (g ())) :
    v.Parallel spec (Emit.report event >>= f) (Emit.report event' >>= g) :=
  .bind .report fun _ _ _ => rest

theorem Parallel.expression {code code' : String} {order : Order} (h : v.Expressions code code') :
    v.Parallel spec (pure (.expression code order)) (pure (.expression code' order)) :=
  .pure (.expression order h)

theorem Parallel.statement {code code' : String} (h : v.Statements code code') :
    v.Parallel spec (pure (.statement code)) (pure (.statement code')) :=
  .pure (.statement h)

/-- A line that is requested under a key is the same in both passes. -/
theorem entries_line {key line : String} (h : Text.lay true line.toList = some false) :
    v.Entries (key, line) (key, line) :=
  ⟨rfl, false, .text h⟩

/-! ## Pieces of code -/

theorem Expressions.quoted {code : String} (text : String) (h : code = quote text) :
    v.Expressions code code :=
  h ▸ .literal (v.same text)

/-- Code between two fixed texts. -/
theorem Expressions.enclosed {code code' front back : String} (h : v.Expressions code code')
    (hfront : ∀ m, Text.lay m front.toList = some false)
    (hback : Text.lay false back.toList = some false) :
    v.Expressions (front ++ code ++ back) (front ++ code' ++ back) :=
  fun m => ((Alike.text (hfront m)).append (h false)).append (.text hback)

/-- Keyword arguments of one name with alike values. -/
inductive Arguments (v : Variation) : String × String → String × String → Prop
  /-- The name begins no line of its own. -/
  | intro {name code code' : String} (hname : Text.lay true name.toList = some false)
      (h : v.Expressions code code') : Arguments v (name, code) (name, code')

theorem Expressions.callWithKeywords {callee : String}
    {arguments arguments' : List (String × String)} (hcallee : v.Expressions callee callee)
    (h : List.Forall₂ v.Arguments arguments arguments') :
    v.Expressions (Emitters.callWithKeywords callee arguments v.leftIndent)
      (Emitters.callWithKeywords callee arguments' v.rightIndent) := by
  obtain ⟨n, hjoined⟩ : ∃ n, v.Alike true n
      (",\n".intercalate (arguments.map fun argument =>
        v.leftIndent ++ argument.1 ++ "=" ++ argument.2))
      (",\n".intercalate (arguments'.map fun argument =>
        v.rightIndent ++ argument.1 ++ "=" ++ argument.2)) := by
    refine Alike.exists_intercalate (by decide) ?_
    rw [List.forall₂_map_left_iff, List.forall₂_map_right_iff]
    refine h.imp fun argument argument' hargument => ⟨false, ?_⟩
    cases hargument with
    | intro hname hvalue =>
      exact ((Alike.unit.append (.text hname)).append (.text (by decide))).append (hvalue false)
  intro m
  exact (((hcallee m).append (.text (by decide))).append hjoined).append
    (.text (by cases n <;> decide))

theorem Statements.taskFunction {name body body' : String} {interval : Float}
    (hname : ∀ c ∈ name.toList, isNameChar c = true) (hbody : v.Statements body body') :
    v.Statements (Emitters.taskFunction name v.leftIndent body interval)
      (Emitters.taskFunction name v.rightIndent body' interval) := by
  have hhead : v.Alike true true
      ("async def " ++ name ++ "():\n" ++ v.leftIndent ++ "while True:\n")
      ("async def " ++ name ++ "():\n" ++ v.rightIndent ++ "while True:\n") :=
    ((((Alike.text (by decide)).append (.name hname)).append (.text (by decide))).append
      .unit).append (.text (by decide))
  have hset := (((hhead.append .unit).append .unit).append
    (.text (n := false) (s := "set_interval_frequency(") (by decide))).append
    (Expressions.number (interval * 1000) false)
  have hloop := (hset.append (.text (n := true) (s := ")\n") (by decide))).append
    hbody.indentLines
  have hsleep := (((hloop.append .unit).append .unit).append
    (.text (n := false) (s := "await asyncio.sleep(") (by decide))).append
    (Expressions.number interval false)
  exact hsleep.append (.text (by decide))

theorem Statements.branch {introduction : String} (level : AlarmLevel)
    (h : Text.lay true introduction.toList = some false) :
    v.Statements (Alarm.branch v.leftIndent introduction level)
      (Alarm.branch v.rightIndent introduction level) := by
  have hreturn : v.Alike true true ("return \"" ++ level.name ++ "\"\n")
      ("return \"" ++ level.name ++ "\"\n") := by
    have hparts : "return \"" ++ level.name ++ "\"\n" = "return " ++ quote level.name ++ "\n" := by
      cases level <;> decide
    rw [hparts]
    exact ((Alike.text (by decide)).append (Expressions.literal (v.same _) false)).append
      (.text (by decide))
  have hhead := (((Alike.unit (v := v)).append (.text h)).append
    (.text (n := true) (s := ":\n") (by decide))).append .unit
  have hbranch := (hhead.append .unit).append hreturn
  simpa only [Statements, Alarm.branch, String.append_assoc] using hbranch

theorem Statements.helperDefinition :
    v.Statements (Alarm.helperDefinition v.leftIndent) (Alarm.helperDefinition v.rightIndent) := by
  have hintroduction : ∀ clause ∈ Alarm.clauses, ∀ first : Bool, Text.lay true
      ((if first then "if " else "elif ") ++ clause.condition).toList = some false := by decide
  have hclause : ∀ clause ∈ Alarm.clauses, ∀ first, v.Statements
      (clause.branch v.leftIndent first) (clause.branch v.rightIndent first) :=
    fun clause hclause first => .branch clause.level (hintroduction clause hclause first)
  have hbranches : v.Statements (Alarm.branches v.leftIndent Alarm.clauses)
      (Alarm.branches v.rightIndent Alarm.clauses) :=
    ((hclause _ (by decide) true).append (hclause _ (by decide) false)).append
      (hclause _ (by decide) false)
  have hhead : v.Statements ("def " ++ Alarm.helperName ++ "(val, lv1, lv2, lv3):\n")
      ("def " ++ Alarm.helperName ++ "(val, lv1, lv2, lv3):\n") := .text (by decide)
  exact (hhead.append hbranches).append (.branch .lv0 (by decide))

theorem Expressions.loggingSetup :
    v.Expressions (Emitters.loggingSetup v.leftIndent) (Emitters.loggingSetup v.rightIndent) := by
  refine .callWithKeywords (.text (by decide)) ?_
  exact .cons (.intro (by decide) (.text (by decide))) <|
    .cons (.intro (by decide) (.literal (v.same _))) <|
    .cons (.intro (by decide) (.literal (v.same _))) .nil

/-! ## The built-in emitters -/

section Emitters

open Emitters

variable (b c : Block)

theorem parallel_serialConfig (type title tooltip : String) {className : String}
    (hclass : ∀ m, Text.lay m className.toList = some false)
    (hline : Text.lay true ("from connection_type import " ++ className).toList = some false) :
    v.Parallel (Catalog.serialConfig type title tooltip)
      (serialConfig className b v.leftIndent) (serialConfig className c v.rightIndent) := by
  refine .perform (entries_line hline) ?_
  refine .value (.quoted "COM4" (by decide)) fun port port' hport => ?_
  refine .fieldText fun baudrate baudrate' hbaudrate => ?_
  refine .value (.text (by decide)) fun bytesize bytesize' hbytesize => ?_
  refine .fieldText fun parity parity' hparity => ?_
  refine .value (.text (by decide)) fun stopbits stopbits' hstopbits => ?_
  refine .value (.text (by decide)) fun timeout timeout' htimeout => ?_
  refine .value (.text (by decide)) fun slaveId slaveId' hslaveId => ?_
  refine .value (.text (by decide)) fun startAddress startAddress' hstartAddress => ?_
  refine .value (.text (by decide)) fun count count' hcount => ?_
  refine .fieldText fun functionCode functionCode' hfunctionCode => .expression ?_
  have hbaudrate' : v.Expressions baudrate baudrate' :=
    hbaudrate.expressions (by decide) rfl (by decide)
  have hfunctionCode' : v.Expressions functionCode functionCode' :=
    hfunctionCode.expressions (by decide) rfl (by decide)
  refine .callWithKeywords (.text hclass) ?_
  exact .cons (.intro (by decide) hport) <| .cons (.intro (by decide) hbaudrate') <|
    .cons (.intro (by decide) hbytesize) <| .cons (.intro (by decide) (.literal hparity.texts)) <|
    .cons (.intro (by decide) hstopbits) <| .cons (.intro (by decide) htimeout) <|
    .cons (.intro (by decide) hslaveId) <| .cons (.intro (by decide) hstartAddress) <|
    .cons (.intro (by decide) hcount) <| .cons (.intro (by decide) hfunctionCode') .nil

theorem parallel_tcpConfig :
    v.Parallel Catalog.tcpConfig (tcpConfig b v.leftIndent) (tcpConfig c v.rightIndent) := by
  refine .perform (entries_line (by decide)) ?_
  refine .value (.quoted "127.0.0.1" (by decide)) fun host host' hhost => ?_
  refine .value (.text (by decide)) fun port port' hport => ?_
  refine .value (.text (by decide)) fun timeout timeout' htimeout => ?_
  refine .value (.text (by decide)) fun slaveId slaveId' hslaveId => ?_
  refine .value (.text (by decide)) fun startAddress startAddress' hstartAddress => ?_
  refine .value (.text (by decide)) fun count count' hcount => ?_
  refine .fieldText fun functionCode functionCode' hfunctionCode => .expression ?_
  have hfunctionCode' : v.Expressions functionCode functionCode' :=
    hfunctionCode.expressions (by decide) rfl (by decide)
  refine .callWithKeywords (.text (by decide)) ?_
  exact .cons (.intro (by decide) hhost) <| .cons (.intro (by decide) hport) <|
    .cons (.intro (by decide) htimeout) <| .cons (.intro (by decide) hslaveId) <|
    .cons (.intro (by decide) hstartAddress) <| .cons (.intro (by decide) hcount) <|
    .cons (.intro (by decide) hfunctionCode') .nil

theorem parallel_pullData :
    v.Parallel Catalog.pullData (pullData b v.leftIndent) (pullData c v.rightIndent) := by
  refine .perform (entries_line (by decide)) ?_
  refine .recorded fun recorded recorded' _ hinTask => ?_
  have hrest : v.Parallel Catalog.pullData
      (Emit.value "CONFIG" .none defaultNone >>= fun config => pure
        (.expression ("await pull_data_async(" ++ config ++ ")") .await))
      (Emit.value "CONFIG" .none defaultNone >>= fun config => pure
        (.expression ("await pull_data_async(" ++ config ++ ")") .await)) :=
    .value (.text (by decide)) fun config config' hconfig =>
      .expression (hconfig.enclosed (by decide) (by decide))
  dsimp only
  rw [hinTask]
  split
  · exact .report hrest
  · exact hrest

theorem parallel_setInterval :
    v.Parallel Catalog.setInterval (setInterval b v.leftIndent) (setInterval c v.rightIndent) := by
  refine .perform (entries_line (by decide)) ?_
  refine .value (.text (by decide)) fun interval interval' hinterval => .statement ?_
  exact ((Alike.text (by decide)).append (hinterval false)).append (.text (by decide))

theorem parallel_getField :
    v.Parallel Catalog.getField (getField b v.leftIndent) (getField c v.rightIndent) := by
  refine .fieldText fun field field' hfield => ?_
  refine .value (.text (by decide)) fun data data' hdata => .expression fun m => ?_
  have hopen := (hdata m).append (.text (n := false) (s := ".get(") (by decide))
  exact (hopen.append (Expressions.literal hfield.texts false)).append (.text (by decide))

theorem parallel_taskDefinition :
    v.Parallel Catalog.taskDefinition (taskDefinition b v.leftIndent)
      (taskDefinition c v.rightIndent) := by
  refine .perform (entries_line (by decide)) ?_
  refine .perform (entries_line (by decide)) ?_
  refine .fieldText fun id id' hid => ?_
  obtain rfl := hid.eq (by decide)
  refine .fieldNumber fun interval => ?_
  refine .recorded fun recorded recorded' htasks _ => ?_
  have hrest : ∀ name, (∀ ch ∈ name.toList, isNameChar ch = true) →
      v.Parallel Catalog.taskDefinition
        (do
          Emit.perform (.registerTask name)
          Emit.perform .enterTask
          let body ← Emit.ask (.body "DO")
          Emit.perform .leaveTask
          return .statement (taskFunction name v.leftIndent (← Emit.check body) interval))
        (do
          Emit.perform (.registerTask name)
          Emit.perform .enterTask
          let body ← Emit.ask (.body "DO")
          Emit.perform .leaveTask
          return .statement (taskFunction name v.rightIndent (← Emit.check body) interval)) := by
    intro name hname
    refine .perform ⟨rfl, hname⟩ ?_
    refine .perform trivial ?_
    -- the task is closed in both passes before the errors of their bodies count
    refine .bind (.ask (.body "DO") trivial) fun body body' hbody => ?_
    refine Parallel.perform trivial ?_
    exact .bind (.check hbody) fun code code' hcode =>
      Parallel.statement (.taskFunction hname hcode)
  have hname := (TaskName.derived_choose recorded.tasks (nameFragment id)).isNameChar
    (nameFragment_isNameChar id)
  dsimp only
  rw [← htasks]
  split
  · exact .report (hrest _ hname)
  · exact hrest _ hname

theorem parallel_getRegister :
    v.Parallel Catalog.getRegister (getRegister b v.leftIndent) (getRegister c v.rightIndent) := by
  refine .value (.text (by decide)) fun index index' hindex => ?_
  refine .value (.text (by decide)) fun data data' hdata => .expression fun m => ?_
  have hopen : v.Alike false false ".get(\"registers\", [])[" ".get(\"registers\", [])[" := by
    have hparts : ".get(\"registers\", [])[" = ".get(" ++ quote "registers" ++ ", [])[" := by decide
    rw [hparts]
    exact ((Alike.text (by decide)).append (Expressions.literal (v.same _) false)).append
      (.text (by decide))
  exact (((hdata m).append hopen).append (hindex false)).append (.text (by decide))

theorem parallel_getLimiter :
    v.Parallel Catalog.getLimiter (getLimiter b v.leftIndent) (getLimiter c v.rightIndent) := by
  refine .perform (entries_line (by decide)) ?_
  refine .fieldText fun name name' hname => .expression ?_
  exact (Expressions.literal hname.texts).enclosed (by decide) (by decide)

theorem parallel_dcpUpdate :
    v.Parallel Catalog.dcpUpdate (dcpUpdate b v.leftIndent) (dcpUpdate c v.rightIndent) := by
  refine .perform (entries_line (by decide)) ?_
  refine .fieldText fun name name' hname => ?_
  refine .value (.text (by decide)) fun value value' hvalue => .statement ?_
  have hopen : v.Alike true false ("dcp_update(" ++ quote name ++ ", ")
      ("dcp_update(" ++ quote name' ++ ", ") :=
    ((Alike.text (by decide)).append (Expressions.literal hname.texts false)).append
      (.text (by decide))
  exact (hopen.append (hvalue false)).append (.text (by decide))

theorem parallel_alarmEvaluator :
    v.Parallel Catalog.alarmEvaluator (alarmEvaluator b v.leftIndent)
      (alarmEvaluator c v.rightIndent) := by
  refine .perform ⟨rfl, true, Statements.helperDefinition⟩ ?_
  refine .value (.text (by decide)) fun reading reading' hreading => ?_
  refine .value (.text (by decide)) fun lv1 lv1' hlv1 => ?_
  refine .value (.text (by decide)) fun lv2 lv2' hlv2 => ?_
  refine .value (.text (by decide)) fun lv3 lv3' hlv3 => .expression fun m => ?_
  obtain ⟨n, hjoined⟩ : ∃ n, v.Alike false n (", ".intercalate [reading, lv1, lv2, lv3])
      (", ".intercalate [reading', lv1', lv2', lv3']) := by
    refine Alike.exists_intercalate (by decide) ?_
    exact .cons ⟨false, hreading false⟩ <| .cons ⟨false, hlv1 false⟩ <|
      .cons ⟨false, hlv2 false⟩ <| .cons ⟨false, hlv3 false⟩ .nil
  have hname : v.Expressions Alarm.helperName Alarm.helperName := .text (by decide)
  exact (((hname m).append (.text (by decide))).append hjoined).append
    (.text (by cases n <;> decide))

theorem parallel_log : v.Parallel Catalog.log (log b v.leftIndent) (log c v.rightIndent) := by
  refine .perform (entries_line (by decide)) ?_
  refine .perform ⟨rfl, false, Expressions.loggingSetup true⟩ ?_
  refine .value (.quoted "" (by decide)) fun message message' hmessage => .statement ?_
  exact ((Alike.text (by decide)).append (hmessage false)).append (.text (by decide))

theorem parallel_text : v.Parallel Catalog.text (text b v.leftIndent) (text c v.rightIndent) :=
  .fieldText fun _ _ ht => .expression (.literal ht.texts)

theorem parallel_mathNumber :
    v.Parallel Catalog.mathNumber (mathNumber b v.leftIndent) (mathNumber c v.rightIndent) :=
  .fieldNumber fun x => .expression (.number x)

theorem parallel_variablesSet :
    v.Parallel Catalog.variablesSet (variablesSet b v.leftIndent)
      (variablesSet c v.rightIndent) := by
  refine .fieldText fun name name' hname => ?_
  obtain rfl := hname.eq (by decide)
  refine .value (.text (by decide)) fun value value' hvalue => .statement ?_
  exact (((Expressions.identifier name true).append (.text (by decide))).append
    (hvalue false)).append (.text (by decide))

theorem parallel_variablesGet :
    v.Parallel Catalog.variablesGet (variablesGet b v.leftIndent)
      (variablesGet c v.rightIndent) := by
  refine .fieldText fun name name' hname => ?_
  obtain rfl := hname.eq (by decide)
  exact .expression (.identifier name)

end Emitters

/-- The emitter of every built-in type makes alike code of alike parts. -/
theorem parallel_builtins {e : Builtin} (h : e ∈ builtins) (b c : Block) :
    v.Parallel e.spec (e.emitter b v.leftIndent) (e.emitter c v.rightIndent) := by
  simp only [builtins, List.mem_cons, List.not_mem_nil, or_false] at h
  rcases h with rfl | rfl | rfl | rfl | rfl | rfl | rfl | rfl | rfl | rfl | rfl | rfl | rfl |
    rfl | rfl | rfl
  · exact parallel_serialConfig b c _ _ _ (by decide) (by decide)
  · exact parallel_serialConfig b c _ _ _ (by decide) (by decide)
  · exact parallel_tcpConfig b c
  · exact parallel_pullData b c
  · exact parallel_setInterval b c
  · exact parallel_getField b c
  · exact parallel_taskDefinition b c
  · exact parallel_getRegister b c
  · exact parallel_getLimiter b c
  · exact parallel_dcpUpdate b c
  · exact parallel_alarmEvaluator b c
  · exact parallel_log b c
  · exact parallel_text b c
  · exact parallel_mathNumber b c
  · exact parallel_variablesSet b c
  · exact parallel_variablesGet b c

end Variation

end PollScript
