import PollScript.Proofs.BlockTree
import PollScript.Proofs.Fields
import PollScript.Proofs.Numerals
import PollScript.Proofs.Scanner

/-!
# User text stays in its place

The user's texts get into a script as string literals, as names, as parts of
names and as choices from fixed lists. None of them opens or closes anything in
the code around it. So every emitter makes balanced code of balanced parts, a
pass collects balanced code only, and the finished script is balanced.

Results:

* `balances_builtins`: the emitter of every built-in type makes balanced code of
  balanced parts.
* `ensures_balanced`: emitting a block or a chain gives balanced code, and
  collects balanced code.
* `accepts_generate`: the scanner accepts every script over the default catalog.
-/

namespace PollScript

open Script

/-! ## Numbers -/

theorem isInert_of_isDigit {c : Char} (h : c.isDigit = true) : Scan.isInert c = true := by
  refine isInert_of_isNameChar ?_
  simp [isNameChar, Char.isAlphanum, h]

/-- The literal of any number is balanced, also if it is a word. -/
theorem balanced_number (x : Float) : Balanced (number x) := by
  refine balanced_of_isInert fun c hc => ?_
  rcases (number_chars x).2 c hc with hname | rfl | rfl
  · exact isInert_of_isNameChar hname
  · decide
  · decide

/-! ## Pieces of code -/

/-- The name of a task is balanced if its id is. -/
theorem balanced_choose (taken : List String) {id : String} (h : Balanced id) :
    Balanced (TaskName.choose taken id) := by
  have hplain : ∀ id, Balanced id → Balanced (TaskName.plain id) := fun id hid =>
    (Balanced.append (by decide) hid).append (by decide)
  unfold TaskName.choose
  split
  · split
    · next n _ =>
      have hnumber : Balanced (toString n) := by
        refine balanced_of_isInert fun c hc => isInert_of_isDigit ?_
        rw [Nat.toString_eq_ofList_toDigits, String.toList_ofList] at hc
        exact (isDigits_iff.mp (isDigits_toDigits n)).2 c hc
      exact hplain _ ((h.append (by decide)).append hnumber)
    · exact hplain id h
  · exact hplain id h

section Pieces

variable {indent : String} (hindent : ∀ c ∈ indent.toList, Scan.isInert c = true)

include hindent

theorem balanced_callWithKeywords {callee : String} {arguments : List (String × String)}
    (hcallee : Balanced callee)
    (harguments : ∀ argument ∈ arguments, Balanced argument.1 ∧ Balanced argument.2) :
    Balanced (Emitters.callWithKeywords callee arguments indent) := by
  have hindent' := balanced_of_isInert hindent
  have hjoined : Balanced (",\n".intercalate (arguments.map fun argument =>
      indent ++ argument.1 ++ "=" ++ argument.2)) := by
    refine balanced_intercalate (by decide) fun part hpart => ?_
    obtain ⟨argument, hargument, rfl⟩ := List.mem_map.mp hpart
    obtain ⟨hname, hvalue⟩ := harguments argument hargument
    exact ((hindent'.append hname).append (by decide)).append hvalue
  have hopen : Takes [] [')'] (callee ++ "(\n") := Takes.append hcallee (by decide)
  exact (hopen.append (hjoined.takes _)).append (by decide)

theorem balanced_taskFunction {name body : String} (hname : Balanced name)
    (hbody : Balanced body) (interval : Float) :
    Balanced (Emitters.taskFunction name indent body interval) := by
  have hindent' := balanced_of_isInert hindent
  have hhead : Balanced ("async def " ++ name ++ "():\n" ++ indent ++ "while True:\n" ++
      indent ++ indent) := by
    refine .append (.append (.append (.append (.append (.append ?_ hname) ?_) hindent') ?_)
      hindent') hindent'
    · decide
    · decide
    · decide
  have hset : Balanced ("async def " ++ name ++ "():\n" ++ indent ++ "while True:\n" ++
      indent ++ indent ++ "set_interval_frequency(" ++ number (interval * 1000) ++ ")\n") := by
    have hopen := Takes.append hhead
      (show Takes [] [')'] "set_interval_frequency(" by decide)
    exact (hopen.append ((balanced_number _).takes _)).append (by decide)
  have hrest := ((hset.append (balanced_indentLines hindent hbody)).append hindent').append hindent'
  have hsleep := Takes.append hrest (show Takes [] [')'] "await asyncio.sleep(" by decide)
  exact (hsleep.append ((balanced_number _).takes _)).append (by decide)

theorem balanced_loggingSetup : Balanced (Emitters.loggingSetup indent) := by
  refine balanced_callWithKeywords hindent (by decide) fun argument hargument => ?_
  simp only [List.mem_cons, List.not_mem_nil, or_false] at hargument
  rcases hargument with rfl | rfl | rfl
  · exact ⟨by decide, by decide⟩
  · exact ⟨by decide, balanced_quote _⟩
  · exact ⟨by decide, balanced_quote _⟩

theorem balanced_branch {introduction : String} (h : Balanced introduction) (level : AlarmLevel) :
    Balanced (Alarm.branch indent introduction level) := by
  have hindent' := balanced_of_isInert hindent
  have hreturn : Balanced ("return \"" ++ level.name ++ "\"\n") := by
    cases level <;> decide
  have hhead := ((((hindent'.append h).append (show Balanced ":\n" by decide)).append
    hindent').append hindent').append hreturn
  simp only [String.append_assoc] at hhead
  simpa only [Alarm.branch, String.append_assoc] using hhead

theorem balanced_helperDefinition : Balanced (Alarm.helperDefinition indent) := by
  have hclause : ∀ clause ∈ Alarm.clauses, ∀ first,
      Balanced (clause.branch indent first) := by
    intro clause hclause first
    refine balanced_branch hindent ?_ clause.level
    have hall : ∀ clause ∈ Alarm.clauses, ∀ first : Bool,
        Balanced ((if first then "if " else "elif ") ++ clause.condition) := by decide
    exact hall clause hclause first
  have hbranches : Balanced (Alarm.branches indent Alarm.clauses) :=
    ((hclause _ (by decide) true).append (hclause _ (by decide) false)).append
      (hclause _ (by decide) false)
  have hhead : Balanced ("def " ++ Alarm.helperName ++ "(val, lv1, lv2, lv3):\n") := by decide
  exact (hhead.append hbranches).append (balanced_branch hindent (by decide) _)

theorem balanced_runner {tasks : List String} (htasks : ∀ task ∈ tasks, Balanced task) :
    Balanced (Context.runner indent tasks) := by
  have hindent' := balanced_of_isInert hindent
  have hcalls : Balanced (", ".intercalate (tasks.map (· ++ "()"))) := by
    refine balanced_intercalate (by decide) fun part hpart => ?_
    obtain ⟨task, htask, rfl⟩ := List.mem_map.mp hpart
    exact (htasks task htask).append (by decide)
  have hopen : Takes [] [')'] ("async def main():\n" ++ indent ++ "await asyncio.gather(") :=
    Takes.append (Balanced.append (by decide) hindent') (by decide)
  have hmain := (hopen.append (hcalls.takes _)).append (show Takes [')'] [] ")\n" by decide)
  unfold Context.runner
  refine .append (.append (.append (.append (.append (.append (.append (.append (.append (.append
    (.append (.append hmain ?_) ?_) hindent') ?_) hindent') hindent') ?_) hindent') ?_) hindent')
    hindent') ?_
  · decide
  · decide
  · decide
  · decide
  · decide
  · decide

end Pieces

/-! ## Emitters -/

/-- What an emitter may do so that only balanced code is collected, and what it
    can rely on. The text of a choice is one of the options. -/
def balancedContract (spec : BlockSpec) : Contract where
  asks _ _ default := Balanced default
  does
    | .requireImport _ line => Balanced line
    | .provideHelper _ code => Balanced code
    | .registerTask name => Balanced name
    | .enterTask | .leaveTask => True
    | .reset | .finalize _ => False
  value _ _ _ code := Balanced code
  body _ code := Balanced code
  text slot t := ∀ first rest, spec.slot? slot = some ⟨slot, .dropdown (first :: rest)⟩ →
    t ∈ (first :: rest).map (·.2)
  number _ _ := True
  recorded _ := True

/-- The emitter keeps to the contract and makes balanced code. -/
def Script.Emit.Balances (spec : BlockSpec) (x : Emit Fragment) : Prop :=
  x.Meets (balancedContract spec) fun f => Balanced f.code

namespace Script.Emit

variable {spec : BlockSpec}

theorem balances_value {slot default : String} {outer : Order} {f : String → Emit Fragment}
    (hdefault : Balanced default) (rest : ∀ code, Balanced code → (f code).Balances spec) :
    (value slot outer default >>= f).Balances spec :=
  .bind (.value hdefault) rest

theorem balances_requireImport {key line : String} {f : Unit → Emit Fragment}
    (hline : Balanced line) (rest : (f ()).Balances spec) :
    (requireImport key line >>= f).Balances spec :=
  .bind (.perform hline) fun _ _ => rest

theorem balances_requireFrom {moduleName name : String} {f : Unit → Emit Fragment}
    (hline : Balanced ("from " ++ moduleName ++ " import " ++ name))
    (rest : (f ()).Balances spec) : (requireFrom moduleName name >>= f).Balances spec :=
  balances_requireImport hline rest

theorem balances_provideHelper {key code : String} {f : Unit → Emit Fragment}
    (hcode : Balanced code) (rest : (f ()).Balances spec) :
    (provideHelper key code >>= f).Balances spec :=
  .bind (.perform hcode) fun _ _ => rest

end Script.Emit

namespace Emitters

open Script.Emit

variable (b : Block) (indent : String) (hindent : ∀ c ∈ indent.toList, Scan.isInert c = true)

/-- A choice from balanced options is balanced. -/
theorem balanced_choice {options : List (String × String)} {t : String}
    (hoptions : ∀ option ∈ options, Balanced option.2) (h : t ∈ options.map (·.2)) :
    Balanced t := by
  obtain ⟨option, hoption, rfl⟩ := List.mem_map.mp h
  exact hoptions option hoption

include hindent

theorem balances_serialConfig {type title tooltip className : String}
    (hclass : Balanced className) :
    (serialConfig className b indent).Balances (Catalog.serialConfig type title tooltip) := by
  refine balances_requireFrom (Balanced.append (by decide) hclass) ?_
  refine balances_value (by decide) fun port hport => ?_
  refine .bind .fieldText fun baudrate hbaudrate => ?_
  refine balances_value (by decide) fun bytesize hbytesize => ?_
  refine .bind .fieldText fun parity _ => ?_
  refine balances_value (by decide) fun stopbits hstopbits => ?_
  refine balances_value (by decide) fun timeout htimeout => ?_
  refine balances_value (by decide) fun slaveId hslaveId => ?_
  refine balances_value (by decide) fun startAddress hstartAddress => ?_
  refine balances_value (by decide) fun count hcount => ?_
  refine .bind .fieldText fun functionCode hfunctionCode => ?_
  refine .pure ?_
  have hbaudrate' : Balanced baudrate :=
    balanced_choice (by decide) (hbaudrate _ _ rfl)
  have hfunctionCode' : Balanced functionCode :=
    balanced_choice (by decide) (hfunctionCode _ _ rfl)
  refine balanced_callWithKeywords hindent hclass ?_
  simp only [List.forall_mem_cons]
  exact ⟨⟨by decide, hport⟩,
    ⟨by decide, hbaudrate'⟩,
    ⟨by decide, hbytesize⟩,
    ⟨by decide, balanced_quote parity⟩,
    ⟨by decide, hstopbits⟩,
    ⟨by decide, htimeout⟩,
    ⟨by decide, hslaveId⟩,
    ⟨by decide, hstartAddress⟩,
    ⟨by decide, hcount⟩,
    ⟨by decide, hfunctionCode'⟩, fun _ h => nomatch h⟩

theorem balances_tcpConfig : (tcpConfig b indent).Balances Catalog.tcpConfig := by
  refine balances_requireFrom (by decide) ?_
  refine balances_value (by decide) fun host hhost => ?_
  refine balances_value (by decide) fun port hport => ?_
  refine balances_value (by decide) fun timeout htimeout => ?_
  refine balances_value (by decide) fun slaveId hslaveId => ?_
  refine balances_value (by decide) fun startAddress hstartAddress => ?_
  refine balances_value (by decide) fun count hcount => ?_
  refine .bind .fieldText fun functionCode hfunctionCode => ?_
  refine .pure ?_
  have hfunctionCode' : Balanced functionCode :=
    balanced_choice (by decide) (hfunctionCode _ _ rfl)
  refine balanced_callWithKeywords hindent (by decide) ?_
  simp only [List.forall_mem_cons]
  exact ⟨⟨by decide, hhost⟩,
    ⟨by decide, hport⟩,
    ⟨by decide, htimeout⟩,
    ⟨by decide, hslaveId⟩,
    ⟨by decide, hstartAddress⟩,
    ⟨by decide, hcount⟩,
    ⟨by decide, hfunctionCode'⟩, fun _ h => nomatch h⟩

omit hindent

/-- Balanced code between two texts, of which the first opens a bracket and the
    second closes it. -/
theorem balanced_enclosed {front back code : String} (hfront : Takes [] [')'] front)
    (hcode : Balanced code) (hback : Takes [')'] [] back) : Balanced (front ++ code ++ back) :=
  Takes.append (hfront.append (hcode.takes _)) hback

theorem balances_pullData : (pullData b indent).Balances Catalog.pullData := by
  refine balances_requireFrom (by decide) ?_
  refine .bind .recorded fun recorded _ => ?_
  have hrest : (Emit.value "CONFIG" .none defaultNone >>= fun config => pure
      (.expression ("await pull_data_async(" ++ config ++ ")") .await)).Balances
      Catalog.pullData := by
    refine balances_value (by decide) fun config hconfig => .pure ?_
    exact balanced_enclosed (by decide) hconfig (by decide)
  dsimp only
  split
  · exact .bind .report fun _ _ => hrest
  · exact hrest

theorem balances_setInterval : (setInterval b indent).Balances Catalog.setInterval := by
  refine balances_requireFrom (by decide) ?_
  refine balances_value (by decide) fun interval hinterval => .pure ?_
  exact balanced_enclosed (by decide) hinterval (by decide)

theorem balances_getField : (getField b indent).Balances Catalog.getField := by
  refine .bind .fieldText fun field _ => ?_
  refine balances_value (by decide) fun data hdata => .pure ?_
  have hopen : Takes [] [')'] (data ++ ".get(") := Takes.append hdata (by decide)
  exact balanced_enclosed hopen (balanced_quote field) (by decide)

theorem balances_getRegister : (getRegister b indent).Balances Catalog.getRegister := by
  refine balances_value (by decide) fun index hindex => ?_
  refine balances_value (by decide) fun data hdata => .pure ?_
  have hopen : Takes [] [']'] (data ++ ".get(\"registers\", [])[") :=
    Takes.append hdata (by decide)
  exact Takes.append (hopen.append (hindex.takes _)) (by decide)

theorem balances_getLimiter : (getLimiter b indent).Balances Catalog.getLimiter := by
  refine balances_requireFrom (by decide) ?_
  refine .bind .fieldText fun name _ => .pure ?_
  exact balanced_enclosed (by decide) (balanced_quote name) (by decide)

theorem balances_dcpUpdate : (dcpUpdate b indent).Balances Catalog.dcpUpdate := by
  refine balances_requireFrom (by decide) ?_
  refine .bind .fieldText fun name _ => ?_
  refine balances_value (by decide) fun value hvalue => .pure ?_
  have hopen : Takes [] [')'] ("dcp_update(" ++ quote name ++ ", ") :=
    Takes.append (Takes.append (by decide) ((balanced_quote name).takes [')'])) (by decide)
  exact balanced_enclosed hopen hvalue (by decide)

theorem balances_text : (text b indent).Balances Catalog.text :=
  .bind .fieldText fun t _ => .pure (balanced_quote t)

theorem balances_mathNumber : (mathNumber b indent).Balances Catalog.mathNumber :=
  .bind .fieldNumber fun x _ => .pure (balanced_number x)

theorem balances_variablesSet : (variablesSet b indent).Balances Catalog.variablesSet := by
  refine .bind .fieldText fun name _ => ?_
  refine balances_value (by decide) fun value hvalue => .pure ?_
  exact (((balanced_identifier name).append (by decide)).append hvalue).append (by decide)

theorem balances_variablesGet : (variablesGet b indent).Balances Catalog.variablesGet :=
  .bind .fieldText fun name _ => .pure (balanced_identifier name)

include hindent

theorem balances_alarmEvaluator :
    (alarmEvaluator b indent).Balances Catalog.alarmEvaluator := by
  refine balances_provideHelper (balanced_helperDefinition hindent) ?_
  refine balances_value (by decide) fun reading hreading => ?_
  refine balances_value (by decide) fun lv1 hlv1 => ?_
  refine balances_value (by decide) fun lv2 hlv2 => ?_
  refine balances_value (by decide) fun lv3 hlv3 => .pure ?_
  refine balanced_enclosed (by decide) (balanced_intercalate (by decide) ?_) (by decide)
  intro part hpart
  simp only [List.mem_cons, List.not_mem_nil, or_false] at hpart
  rcases hpart with rfl | rfl | rfl | rfl
  · exact hreading
  · exact hlv1
  · exact hlv2
  · exact hlv3

theorem balances_log : (log b indent).Balances Catalog.log := by
  refine balances_requireImport (by decide) ?_
  refine balances_provideHelper (balanced_loggingSetup hindent) ?_
  refine balances_value (by decide) fun message hmessage => .pure ?_
  exact balanced_enclosed (by decide) hmessage (by decide)

theorem balances_taskDefinition :
    (taskDefinition b indent).Balances Catalog.taskDefinition := by
  refine balances_requireImport (by decide) ?_
  refine balances_requireFrom (by decide) ?_
  refine .bind .fieldText fun id _ => ?_
  refine .bind .fieldNumber fun interval _ => ?_
  refine .bind .recorded fun recorded _ => ?_
  have hname : Balanced (TaskName.choose recorded.tasks (nameFragment id)) :=
    balanced_choose _ (balanced_of_isNameChar (nameFragment_isNameChar id))
  have hrest : ∀ name, Balanced name → Balances Catalog.taskDefinition (do
      Emit.perform (.registerTask name)
      Emit.perform .enterTask
      let body ← Emit.ask (.body "DO")
      Emit.perform .leaveTask
      return .statement (taskFunction name indent (← Emit.check body) interval)) := by
    intro name hname
    refine .bind (.perform hname) fun _ _ => ?_
    refine .bind (.perform trivial) fun _ _ => ?_
    refine .bind (.ask (.body "DO") trivial) fun body hbody => ?_
    refine .bind (.perform trivial) fun _ _ => ?_
    refine .bind .check fun code hcode => .pure ?_
    exact balanced_taskFunction hindent hname (hbody code hcode) interval
  dsimp only
  split
  · exact .bind .report fun _ _ => hrest _ hname
  · exact hrest _ hname

end Emitters

/-- The emitter of every built-in type makes balanced code of balanced parts. -/
theorem balances_builtins {e : Builtin} (h : e ∈ builtins) (b : Block) {indent : String}
    (hindent : ∀ c ∈ indent.toList, Scan.isInert c = true) :
    (e.emitter b indent).Balances e.spec := by
  simp only [builtins, List.mem_cons, List.not_mem_nil, or_false] at h
  rcases h with rfl | rfl | rfl | rfl | rfl | rfl | rfl | rfl | rfl | rfl | rfl | rfl | rfl |
    rfl | rfl | rfl
  · exact Emitters.balances_serialConfig b indent hindent (by decide)
  · exact Emitters.balances_serialConfig b indent hindent (by decide)
  · exact Emitters.balances_tcpConfig b indent hindent
  · exact Emitters.balances_pullData b indent
  · exact Emitters.balances_setInterval b indent
  · exact Emitters.balances_getField b indent
  · exact Emitters.balances_taskDefinition b indent hindent
  · exact Emitters.balances_getRegister b indent
  · exact Emitters.balances_getLimiter b indent
  · exact Emitters.balances_dcpUpdate b indent
  · exact Emitters.balances_alarmEvaluator b indent hindent
  · exact Emitters.balances_log b indent hindent
  · exact Emitters.balances_text b indent
  · exact Emitters.balances_mathNumber b indent
  · exact Emitters.balances_variablesSet b indent
  · exact Emitters.balances_variablesGet b indent

/-! ## Passes -/

/-- All that the context holds is balanced. -/
structure Script.Context.Balanced (c : Context) : Prop where
  imports : ∀ entry ∈ c.imports, PollScript.Balanced entry.2
  helpers : ∀ entry ∈ c.helpers, PollScript.Balanced entry.2
  tasks : ∀ task ∈ c.tasks, PollScript.Balanced task
  /-- The unit of indentation is without effect. -/
  indent : ∀ ch ∈ c.indent.toList, Scan.isInert ch = true

namespace Script.Context

theorem balanced_request {entries : List (String × String)} {key text : String}
    (hentries : ∀ entry ∈ entries, PollScript.Balanced entry.2) (htext : PollScript.Balanced text) :
    ∀ entry ∈ (request key text entries).2, PollScript.Balanced entry.2 := by
  intro entry hentry
  unfold request at hentry
  split at hentry
  · exact hentries entry hentry
  · rcases List.mem_append.mp hentry with hentry | hentry
    · exact hentries entry hentry
    · rw [List.mem_singleton.mp hentry]
      exact htext

theorem balanced_apply {spec : BlockSpec} {operation : Operation} {c : Context}
    (h : (balancedContract spec).does operation) (hc : c.Balanced) :
    (c.apply operation).2.Balanced := by
  cases operation with
  | requireImport key line => exact ⟨balanced_request hc.imports h, hc.helpers, hc.tasks, hc.indent⟩
  | provideHelper key code => exact ⟨hc.imports, balanced_request hc.helpers h, hc.tasks, hc.indent⟩
  | registerTask name =>
    refine ⟨hc.imports, hc.helpers, fun task htask => ?_, hc.indent⟩
    rcases List.mem_append.mp htask with htask | htask
    · exact hc.tasks task htask
    · rw [List.mem_singleton.mp htask]
      exact h
  | enterTask => exact ⟨hc.imports, hc.helpers, hc.tasks, hc.indent⟩
  | leaveTask => exact ⟨hc.imports, hc.helpers, hc.tasks, hc.indent⟩
  | reset => exact h.elim
  | finalize code => exact h.elim

theorem balanced_headerLines {c : Context} (hc : c.Balanced) :
    ∀ line ∈ c.headerLines, PollScript.Balanced line := by
  intro line hline
  obtain ⟨entry, hentry, rfl⟩ := List.mem_map.mp hline
  split at hentry
  · exact hc.imports entry hentry
  · exact balanced_request hc.imports (by decide) entry hentry

theorem balanced_sections {code : String} {c : Context} (hcode : PollScript.Balanced code)
    (hc : c.Balanced) : ∀ part ∈ c.sections code, PollScript.Balanced part := by
  intro part hpart
  simp only [sections, arrange, List.mem_append] at hpart
  rcases hpart with ((hpart | hpart) | hpart) | hpart
  · split at hpart
    · cases hpart
    · rw [List.mem_singleton.mp hpart]
      exact balanced_intercalate (by decide) (balanced_headerLines hc)
  · obtain ⟨entry, hentry, rfl⟩ := List.mem_map.mp hpart
    exact hc.helpers entry hentry
  · rw [List.mem_singleton.mp hpart]
    exact hcode
  · split at hpart
    · cases hpart
    · rw [List.mem_singleton.mp hpart]
      exact balanced_runner hc.indent hc.tasks

/-- Joining sections is joining their texts without line feeds at the ends. -/
theorem joinSections_eq (parts : List String) :
    joinSections parts = "\n\n\n".intercalate
      (((parts.map fun s => Text.trimLineFeeds s.toList).filter (!Text.allBlank ·)).map
        String.ofList) := by
  have hids : ∀ texts : List (List Char), (texts.map String.ofList).map String.toList = texts := by
    intro texts
    induction texts with
    | nil => rfl
    | cons text rest ih => rw [List.map_cons, List.map_cons, ih, String.toList_ofList]
  rw [← String.toList_inj, String.toList_intercalate, joinSections, String.toList_ofList, hids]
  rfl

theorem balanced_joinSections {parts : List String}
    (h : ∀ part ∈ parts, PollScript.Balanced part) :
    PollScript.Balanced (joinSections parts) := by
  rw [joinSections_eq]
  refine balanced_intercalate (by decide) fun text htext => ?_
  obtain ⟨cs, hcs, rfl⟩ := List.mem_map.mp htext
  obtain ⟨part, hpart, rfl⟩ := List.mem_map.mp (List.mem_filter.mp hcs).1
  unfold PollScript.Balanced Takes
  rw [String.toList_ofList]
  exact Scan.run_trimLineFeeds (h part hpart)

/-- The finished script is balanced if what was collected is. -/
theorem balanced_finalize {code : String} {c : Context} (hcode : PollScript.Balanced code)
    (hc : c.Balanced) : PollScript.Balanced (c.finalize code).1 := by
  rw [finalize_fst]
  exact balanced_tidy (balanced_joinSections (balanced_sections hcode hc))

end Script.Context

namespace Generator

variable {g : Generator}

/-- A spliced value is balanced if the value and the default are. -/
theorem balanced_of_splice {outer : Order} {default code : String} {child : Block} {f : Fragment}
    (hdefault : Balanced default) (hf : Balanced f.code)
    (h : splice outer default child f = .ok code) : Balanced code := by
  obtain ⟨text, order, rfl, ⟨-, rfl⟩ | ⟨-, -, rfl⟩ | ⟨-, -, rfl⟩⟩ := splice_eq_ok h
  · exact hdefault
  · exact Emitters.balanced_enclosed (by decide) hf (by decide)
  · exact hf

/-- Emitting a block or a chain gives balanced code, and all that it collects is
    balanced. -/
theorem ensures_balanced (hstandard : g.Standard)
    (hindent : ∀ c ∈ g.indent.toList, Scan.isInert c = true) (b : Block) :
    Generation.Ensures (fun pass => pass.context.Balanced) (fun f => Balanced f.code)
        (g.resolve b).emitted ∧
      ∀ attached, Generation.Ensures (fun pass => pass.context.Balanced) Balanced
        ((g.resolve b).chain attached) := by
  refine g.ensures_resolve (fun _ f => Balanced f.code) Balanced balanced_empty
    (fun _ _ => Balanced.append) (fun _ _ h => h) ?_ b
  intro b inputs
  rcases hstandard b.type with ⟨-, hemitter⟩ | ⟨e, he, htype, hemitter⟩
  · rw [resolve_emitted]
    unfold emit
    rw [hemitter]
    exact .throw
  refine g.ensures_emitted (balancedContract e.spec) ?_ ?_ ?_ ?_ ?_ ?_ ?_ ?_
  · intro slot outer default hdefault
    refine (g.ensures_valueOf (fun _ f => Balanced f.code) fun child hchild => ?_).mono ?_
    · obtain ⟨c, hc, rfl⟩ := Option.map_eq_some_iff.mp (g.supplier_eq_some hchild).1
      exact (inputs slot c hc).1
    · rintro code (⟨-, rfl⟩ | ⟨child, f, -, hf, hcode⟩)
      · exact hdefault
      · exact balanced_of_splice hdefault hf hcode
  · intro slot
    refine (g.ensures_bodyOf (fun _ => Balanced) fun first hfirst => ?_).mono ?_
    · obtain ⟨c, hc, rfl⟩ := Option.map_eq_some_iff.mp hfirst
      exact (inputs slot c hc).2
    · rintro code (⟨-, rfl⟩ | ⟨first, lines, -, hlines, rfl⟩)
      · exact balanced_empty
      · exact balanced_indentLines hindent hlines
  · exact fun slot t ht first rest hslot => (fieldText_eq_choice htype hslot ht).2
  · exact fun _ _ _ => trivial
  · exact fun _ _ => trivial
  · exact fun operation hdoes pass hpass => Context.balanced_apply hdoes hpass
  · exact fun _ _ hpass => hpass
  · intro emitter hfound
    rw [hemitter] at hfound
    cases hfound
    exact balances_builtins he b hindent

theorem balanced_joinChunks {chunks : List String} (h : ∀ code ∈ chunks, Balanced code) :
    Balanced (joinChunks chunks) :=
  balanced_intercalate (by decide) fun code hcode => h code (List.mem_filter.mp hcode).1

/-- The scanner accepts every script over the default catalog, whatever texts the
    user has put into the workspace. -/
theorem accepts_generate {width : Nat} {g : Generator}
    (built : (Builder.default.indentWidth width).build = .ok g) {w : Workspace} {script : String}
    (h : g.generate w = .ok script) : Scan.accepts script = true := by
  obtain ⟨hstandard, hspaces⟩ := Builder.standard_of_build rfl rfl built
  have hindent : ∀ c ∈ g.indent.toList, Scan.isInert c = true := by
    intro c hc
    rw [hspaces] at hc
    simp only [Builder.indentWidth, String.toList_ofList] at hc
    rw [List.eq_of_mem_replicate hc]
    decide
  have hcontext : (Context.withIndent g.indent).Balanced :=
    ⟨fun _ h => absurd h List.not_mem_nil, fun _ h => absurd h List.not_mem_nil,
      fun _ h => absurd h List.not_mem_nil, hindent⟩
  have hpass : Generation.Ensures (fun pass => pass.context.Balanced)
      (fun chunks => ∀ code ∈ chunks, Balanced code) (g.topLevels w) := by
    refine g.ensures_topLevels Balanced balanced_empty (fun b => ?_)
      (fun b => (ensures_balanced hstandard hindent b).2 false)
    refine (ensures_balanced hstandard hindent b).1.mono fun f hf => ?_
    cases f with
    | expression code order => exact Balanced.append hf (by decide)
    | statement code => exact hf
  obtain ⟨chunks, pass, hchunks, hcollected, hscript⟩ :=
    g.exists_of_generate_eq_ok hpass hcontext h
  rw [hscript, accepts_iff]
  exact Context.balanced_finalize (balanced_joinChunks hchunks) hcollected

/-- A text that would close its literal, end its line and begin a comment stays
    in its literal. -/
theorem accepts_hostile_text :
    Generator.generate ⟨⟨Catalog.default⟩, Emitters.default, (Builder.default.indentWidth 4).indent⟩
      ⟨[⟨"b1", "text", true, [("TEXT", .text "\")\n\\#")], [], none⟩]⟩ =
        .ok "\"\\\")\\n\\\\#\"\n" ∧
      Scan.accepts "\"\\\")\\n\\\\#\"\n" = true := by
  have hscript : Generator.generate
      ⟨⟨Catalog.default⟩, Emitters.default, (Builder.default.indentWidth 4).indent⟩
      ⟨[⟨"b1", "text", true, [("TEXT", .text "\")\n\\#")], [], none⟩]⟩ =
        .ok "\"\\\")\\n\\\\#\"\n" := by rfl
  exact ⟨hscript, accepts_generate (Builder.build_default 4) hscript⟩

end Generator

end PollScript
