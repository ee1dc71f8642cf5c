import PollScript.Proofs.Chains
import PollScript.Proofs.NumberTokens
import PollScript.Proofs.Outline
import PollScript.Proofs.Walk

/-!
# The bodies of tasks

The function of a task is put together from texts without a look at what they are: the codes
of statements are joined with nothing between them, and indented twice, line by line. This
only gives the loop that is meant because each code of a statement consists of complete lines,
of which the first begins at the left margin and none is blank.

Results:

* `standsAlone_emitted`: the code of every statement is made of complete lines.
* `lines_join`: such codes share no line.
* `lines_taskFunction`: the lines of a task's function.
* `emitted_body`: what stands in the body of a task is what its blocks are emitted to, in
  a context in which the task is open.
* `standsAlone_emitBlock`: both for the default generator, with the lines of a task.
-/

namespace PollScript

open Script

/-! ## Complete lines -/

namespace Text

/-- The lines of a text that end in a line feed. -/
def rows (cs : List Char) : List (List Char) :=
  (lines cs).dropLast

/-- Behind a complete line, a text goes on with lines of its own. -/
theorem lines_append_of_complete {as : List Char} {front : List (List Char)}
    (has : lines as = front ++ [[]]) (bs : List Char) : lines (as ++ bs) = front ++ lines bs := by
  obtain ⟨first, more, hbs⟩ := List.exists_cons_of_ne_nil (lines_ne_nil bs)
  rw [lines_append has hbs, hbs, List.nil_append]

end Text

/-- Code of statements that can stand behind any other and in front of any other: it is not
    empty, begins at the left margin, has no blank line, and its last line is complete. -/
structure StandsAlone (code : String) : Prop where
  ne_empty : code ≠ ""
  margin : ∀ c ∈ code.toList.head?, Text.isBlank c = false
  solid : ∀ row ∈ Text.rows code.toList, Text.allBlank row = false
  ends : ∃ body, code = body ++ "\n"

theorem StandsAlone.lines {code : String} (h : StandsAlone code) :
    Text.lines code.toList = Text.rows code.toList ++ [[]] := by
  obtain ⟨body, rfl⟩ := h.ends
  have hlines : Text.lines (body ++ "\n").toList = Text.lines body.toList ++ [[]] := by
    rw [String.toList_append]
    exact Text.lines_append_end body.toList
  rw [Text.rows, hlines, List.dropLast_concat]

/-- Codes that stand alone share no line when they are joined. -/
theorem lines_join {codes : List String} (h : ∀ code ∈ codes, StandsAlone code) :
    Text.lines (String.join codes).toList =
      codes.flatMap (fun code => Text.rows code.toList) ++ [[]] := by
  induction codes with
  | nil => rfl
  | cons code rest ih =>
    obtain ⟨hcode, hrest⟩ := List.forall_mem_cons.mp h
    rw [String.join_cons, String.toList_append, Text.lines_append_of_complete hcode.lines,
      ih hrest, List.flatMap_cons, List.append_assoc]

/-- Joined, they have no blank line either. -/
theorem solid_flatMap_rows {codes : List String} (h : ∀ code ∈ codes, StandsAlone code) :
    ∀ row ∈ codes.flatMap (fun code => Text.rows code.toList), Text.allBlank row = false := by
  intro row hrow
  obtain ⟨code, hmem, hrow⟩ := List.mem_flatMap.mp hrow
  exact (h code hmem).solid row hrow

theorem Text.head?_of_lines {cs first : List Char} {c : Char} {more : List (List Char)}
    (h : lines cs = (c :: first) :: more) : cs.head? = some c := by
  cases cs with
  | nil => cases h
  | cons d cs =>
    rw [lines_cons] at h
    by_cases hd : d = '\n'
    · simp [consLine, hd] at h
    · obtain ⟨line, rest, hlines⟩ := List.exists_cons_of_ne_nil (lines_ne_nil cs)
      rw [hlines, consLine_of_ne hd] at h
      cases h
      rfl

theorem Text.exists_body_of_lines {cs first : List Char} {more : List (List Char)}
    (h : lines cs = first :: more ++ [[]]) : ∃ body, cs = body ++ ['\n'] := by
  induction cs using line_induction generalizing first more with
  | last line hline =>
    rw [lines_of_not_mem hline] at h
    simp at h
  | cons line rest hline ih =>
    rw [lines_append_line hline] at h
    have hrest : lines rest = more ++ [[]] := (List.cons.inj h).2
    cases more with
    | nil =>
      have hnil := joinLines_lines rest
      rw [hrest] at hnil
      exact ⟨line, by rw [← hnil]; rfl⟩
    | cons second more =>
      obtain ⟨body, rfl⟩ := ih hrest
      exact ⟨line ++ '\n' :: body, by simp⟩

/-- Code of complete lines without a blank one stands alone if its first line begins at the
    left margin. -/
theorem standsAlone_of_lines {code : String} {c : Char} {first : List Char}
    {more : List (List Char)} (hlines : Text.lines code.toList = (c :: first) :: more ++ [[]])
    (hc : Text.isBlank c = false) (hmore : ∀ row ∈ more, Text.allBlank row = false) :
    StandsAlone code := by
  have hhead : code.toList.head? = some c := Text.head?_of_lines hlines
  have hrows : Text.rows code.toList = (c :: first) :: more := by
    rw [Text.rows, hlines, List.dropLast_concat]
  refine ⟨?_, ?_, ?_, ?_⟩
  · rintro rfl
    cases hhead
  · rw [hhead]
    rintro d hd
    cases hd
    exact hc
  · rw [hrows]
    refine List.forall_mem_cons.mpr ⟨?_, hmore⟩
    simp [Text.allBlank, hc]
  · obtain ⟨body, hbody⟩ := Text.exists_body_of_lines hlines
    refine ⟨String.ofList body, String.toList_inj.mp ?_⟩
    rw [hbody, String.toList_append, String.toList_ofList]
    rfl

theorem not_allBlank_of_isClear {line : List Char} (h : isClear line = true) :
    Text.allBlank line = false := by
  rw [Bool.eq_false_iff]
  intro hblank
  have hdedent : Text.dedent line = [] :=
    List.dropWhile_eq_nil_iff.mpr (List.all_eq_true.mp hblank)
  rw [isClear, hdedent] at h
  revert h
  decide

/-- Clear code that begins at the left margin stands alone when its line is completed. -/
theorem Clear.standsAlone {code : String} (h : Clear code) {c : Char}
    (hhead : code.toList.head? = some c) (hc : Text.isBlank c = false) :
    StandsAlone (code ++ "\n") := by
  have hrows : Text.rows (code ++ "\n").toList = Text.lines code.toList := by
    rw [Text.rows, String.toList_append]
    exact (congrArg List.dropLast (Text.lines_append_end code.toList)).trans List.dropLast_concat
  refine ⟨?_, ?_, fun row hrow => ?_, ⟨code, rfl⟩⟩
  · simp
  · rw [String.toList_append, List.head?_append, hhead]
    rintro d hd
    cases hd
    exact hc
  · exact not_allBlank_of_isClear (h row (hrows ▸ hrow))

/-! ## Statements -/

/-- If the fragment is made of statements, their code stands alone. -/
def Standing (f : Fragment) : Prop :=
  ∀ code, f = .statement code → StandsAlone code

theorem StandsAlone.standing {code : String} (h : StandsAlone code) :
    Standing (.statement code) := by
  rintro _ ⟨⟩
  exact h

namespace Emitters

open Script.Emit

variable (b : Block) (indent : String)

/-- A call begins with the name of its function. -/
theorem standing_call {front code : String} (hfront : Clear front) {c : Char}
    (hhead : front.toList.head? = some c) (hc : Text.isBlank c = false) (hcode : Trails code) :
    Standing (.statement (front ++ code ++ ")\n")) := by
  refine StandsAlone.standing ?_
  have hcall : Clear (front ++ code ++ ")") := clear_enclosed hfront hcode (by decide)
  rw [show ")\n" = ")" ++ "\n" from rfl, ← String.append_assoc]
  refine hcall.standsAlone (c := c) ?_ hc
  rw [String.append_assoc, String.toList_append, List.head?_append, hhead]
  rfl

theorem standing_setInterval :
    (setInterval b indent).Meets (quietContract Catalog.setInterval) Standing := by
  refine .bind (.perform trivial) fun _ _ => ?_
  refine .bind (.value (.inl (by decide))) fun interval hinterval => .pure ?_
  exact standing_call (by decide) rfl (by decide) hinterval.trails

theorem standing_dcpUpdate :
    (dcpUpdate b indent).Meets (quietContract Catalog.dcpUpdate) Standing := by
  refine .bind (.perform trivial) fun _ _ => ?_
  refine .bind .fieldText fun name _ => ?_
  refine .bind (.value (.inl (by decide))) fun value hvalue => .pure ?_
  have hfront : Clear ("dcp_update(" ++ quote name ++ ", ") :=
    clear_enclosed (by decide) (clear_quote name).trails (by decide)
  refine standing_call (c := 'd') hfront ?_ (by decide) hvalue.trails
  rw [String.append_assoc, String.toList_append, List.head?_append]
  rfl

theorem standing_log : (log b indent).Meets (quietContract Catalog.log) Standing := by
  refine .bind (.perform trivial) fun _ _ => ?_
  refine .bind (.perform trivial) fun _ _ => ?_
  refine .bind (.value (.inl (by decide))) fun message hmessage => .pure ?_
  exact standing_call (by decide) rfl (by decide) hmessage.trails

theorem standing_variablesSet :
    (variablesSet b indent).Meets (quietContract Catalog.variablesSet) Standing := by
  refine .bind .fieldText fun name _ => ?_
  refine .bind (.value (.inl (by decide))) fun value hvalue => .pure ?_
  obtain ⟨c, cs, hlist, hc, -⟩ := exists_identifier name
  have hfront : Clear (identifier name ++ " = ") :=
    clear_identifier_append name " = " rfl (by decide) (by decide) (by decide)
  refine StandsAlone.standing ?_
  refine (hfront.append hvalue.trails).standsAlone (c := c) ?_ (isBlank_of_isNameChar hc)
  rw [String.append_assoc, String.toList_append, hlist]
  rfl

end Emitters

/-- The code of every type of statements but the task stands alone. -/
theorem standing_builtins {e : Builtin} (h : e ∈ builtins)
    (hvalue : e.spec.isValueBlock = false) (htask : e.spec.type ≠ taskType) (b : Block)
    (indent : String) : (e.emitter b indent).Meets (quietContract e.spec) Standing := by
  simp only [builtins, List.mem_cons, List.not_mem_nil, or_false] at h
  rcases h with rfl | rfl | rfl | rfl | rfl | rfl | rfl | rfl | rfl | rfl | rfl | rfl | rfl |
    rfl | rfl | rfl
  · exact absurd hvalue (by decide)
  · exact absurd hvalue (by decide)
  · exact absurd hvalue (by decide)
  · exact absurd hvalue (by decide)
  · exact Emitters.standing_setInterval b indent
  · exact absurd hvalue (by decide)
  · exact absurd rfl htask
  · exact absurd hvalue (by decide)
  · exact absurd hvalue (by decide)
  · exact Emitters.standing_dcpUpdate b indent
  · exact absurd hvalue (by decide)
  · exact Emitters.standing_log b indent
  · exact absurd hvalue (by decide)
  · exact absurd hvalue (by decide)
  · exact Emitters.standing_variablesSet b indent
  · exact absurd hvalue (by decide)

/-! ## The function of a task -/

/-- The line that tells the poll how often a task runs. -/
def intervalLine (interval : Float) : List Char :=
  ("set_interval_frequency(" ++ number (interval * 1000) ++ ")").toList

/-- The line on which a task waits for its next turn. -/
def sleepLine (interval : Float) : List Char :=
  ("await asyncio.sleep(" ++ number interval ++ ")").toList

/-- The lines of a task's function, around those of its body. -/
def taskLines (name : String) (indent : List Char) (interval : Float)
    (body : List (List Char)) : List (List Char) :=
  definitionLine name :: (indent ++ "while True:".toList) ::
    (intervalLine interval :: (body ++ [sleepLine interval])).map (indent ++ indent ++ ·)

theorem not_mem_number (x : Float) : '\n' ∉ (number x).toList := by
  intro hmem
  rcases (number_chars x).2 _ hmem with hname | hminus | hpoint
  · revert hname
    decide
  · revert hminus
    decide
  · revert hpoint
    decide

theorem not_mem_intervalLine (interval : Float) : '\n' ∉ intervalLine interval := by
  simp [intervalLine, not_mem_number]

theorem not_mem_sleepLine (interval : Float) : '\n' ∉ sleepLine interval := by
  simp [sleepLine, not_mem_number]

theorem allBlank_append_of_solid (front : List Char) {row : List Char}
    (h : Text.allBlank row = false) : Text.allBlank (front ++ row) = false := by
  rw [Text.allBlank, List.all_append, ← Text.allBlank, ← Text.allBlank, h, Bool.and_false]

/-- A line that is not blank is indented as often as its code is. -/
theorem indentLine_twice {indent row : List Char} (h : Text.allBlank row = false) :
    Text.indentLine indent (Text.indentLine indent row) = indent ++ indent ++ row := by
  rw [Text.indentLine, Text.indentLine, h, if_neg Bool.false_ne_true,
    allBlank_append_of_solid indent h, if_neg Bool.false_ne_true, List.append_assoc]

/-- Around a body of complete lines, the function of a task has the lines of the loop, and
    each line of the body one level deeper than the loop. -/
theorem lines_taskFunction {indent name : String} (hline : '\n' ∉ indent.toList)
    (hname : '\n' ∉ name.toList) (interval : Float) {code : String} {body : List (List Char)}
    (hcode : Text.lines code.toList = body ++ [[]])
    (hbody : ∀ row ∈ body, Text.allBlank row = false) :
    Text.lines (Emitters.taskFunction name indent (Text.indentLines indent code)
      interval).toList = taskLines name indent.toList interval body ++ [[]] := by
  have hfunction : (Emitters.taskFunction name indent (Text.indentLines indent code)
      interval).toList =
      definitionLine name ++ '\n' :: ((indent.toList ++ "while True:".toList) ++ '\n' ::
        ((indent.toList ++ indent.toList ++ intervalLine interval) ++ '\n' ::
          (Text.indentChars indent.toList (Text.indentChars indent.toList code.toList) ++
            ((indent.toList ++ indent.toList ++ sleepLine interval) ++ '\n' :: [])))) := by
    have hdef : "():\n" = "():" ++ "\n" := rfl
    have hloop : "while True:\n" = "while True:" ++ "\n" := rfl
    have hclose : ")\n" = ")" ++ "\n" := rfl
    have hfeed : "\n".toList = ['\n'] := rfl
    unfold Emitters.taskFunction definitionLine intervalLine sleepLine
    rw [hdef, hloop, hclose]
    simp only [String.toList_append]
    rw [Text.toList_indentLines, Text.toList_indentLines, hfeed]
    simp only [List.append_assoc, List.cons_append, List.nil_append]
  have hdefinition : '\n' ∉ definitionLine name := by simp [definitionLine, hname]
  have hwhile : '\n' ∉ indent.toList ++ "while True:".toList := by simp [hline]
  have hset : '\n' ∉ indent.toList ++ indent.toList ++ intervalLine interval := by
    simp [hline, not_mem_intervalLine]
  have hsleep : '\n' ∉ indent.toList ++ indent.toList ++ sleepLine interval := by
    simp [hline, not_mem_sleepLine]
  have hrows : body.map (Text.indentLine indent.toList ∘ Text.indentLine indent.toList) =
      body.map (indent.toList ++ indent.toList ++ ·) :=
    List.map_congr_left fun row hrow => indentLine_twice (hbody row hrow)
  have hindented :
      Text.lines (Text.indentChars indent.toList (Text.indentChars indent.toList code.toList)) =
        body.map (indent.toList ++ indent.toList ++ ·) ++ [[]] := by
    rw [Text.lines_indentChars hline, Text.lines_indentChars hline, hcode, List.map_map,
      List.map_append, hrows]
    rfl
  rw [hfunction, Text.lines_append_line hdefinition, Text.lines_append_line hwhile,
    Text.lines_append_line hset, Text.lines_append_of_complete hindented,
    Text.lines_append_line hsleep, taskLines, List.map_cons, List.map_append]
  simp [Text.lines]

/-- The function of a task stands alone if its body has complete lines and no blank one. -/
theorem standsAlone_taskFunction {indent name : String} (hline : '\n' ∉ indent.toList)
    (hname : '\n' ∉ name.toList) (interval : Float) {code : String} {body : List (List Char)}
    (hcode : Text.lines code.toList = body ++ [[]])
    (hbody : ∀ row ∈ body, Text.allBlank row = false) :
    StandsAlone (Emitters.taskFunction name indent (Text.indentLines indent code) interval) := by
  have hlines := lines_taskFunction hline hname interval hcode hbody
  have hset : Text.allBlank (intervalLine interval) = false := by
    rw [intervalLine, String.append_assoc, String.toList_append]
    rfl
  have hsleep : Text.allBlank (sleepLine interval) = false := by
    rw [sleepLine, String.append_assoc, String.toList_append]
    rfl
  obtain ⟨first, hfirst⟩ : ∃ first, definitionLine name = 'a' :: first := by
    rw [definitionLine, String.append_assoc, String.toList_append]
    exact ⟨_, rfl⟩
  rw [taskLines, hfirst] at hlines
  refine standsAlone_of_lines hlines (by decide) ?_
  refine List.forall_mem_cons.mpr ⟨allBlank_append_of_solid _ (by decide), fun row hrow => ?_⟩
  obtain ⟨inner, hinner, rfl⟩ := List.mem_map.mp hrow
  refine allBlank_append_of_solid _ ?_
  rcases List.mem_cons.mp hinner with rfl | hinner
  · exact hset
  · rcases List.mem_append.mp hinner with hinner | hinner
    · exact hbody inner hinner
    · rw [List.mem_singleton.mp hinner]
      exact hsleep

namespace Generator

variable {g : Generator} {b : Block}

section Passes

variable (hplain : g.Plain) (hblank : Text.allBlank g.indent.toList = true)
  (hline : '\n' ∉ g.indent.toList)

include hplain hblank hline

/-- The code of a block that is no task stands alone if it is a statement. -/
theorem ensures_standing_emitted (htask : b.type ≠ taskType) (tasks : List String) :
    Generation.Ensures (fun pass => pass.tasks = tasks) Standing (g.resolve b).emitted := by
  have hquiet := (still hplain hblank hline b tasks).1 htask
  rcases hplain b.type with ⟨-, hemitter⟩ | ⟨e, he, hname, htype, hemitter⟩
  · rw [resolve_emitted]
    unfold emit
    rw [hemitter]
    exact .throw
  cases hvalue : e.spec.isValueBlock with
  | false =>
    refine ensures_emitted_of_meets hplain
      (fun _ child _ => still hplain hblank hline child) (fun e' he' hname' => ?_) tasks
    obtain rfl := builtin_eq_of_type he' he (hname'.trans hname.symm)
    exact standing_builtins he' hvalue (hname' ▸ htask) b g.indent
  | true =>
    -- a type that gives a value makes no statements
    intro pass hpass
    refine ⟨(hquiet pass hpass).1, ?_⟩
    rintro f hf code rfl
    have hspec : g.registry.typeOf b = .ok (e.named b.type) := by rw [Registry.typeOf, htype]
    have hkind := ((g.follows hplain.standard b).1 pass).2 _ hf _ hspec
    have hnamed : (e.named b.type).isValueBlock = true := hvalue
    rw [hnamed] at hkind
    cases hkind

end Passes

end Generator

/-! ## What stands in a body -/

/-- The context in which the body of a task is emitted. -/
def Script.Context.openTask (c : Context) (name : String) : Context :=
  (((c.requireImport "asyncio" "import asyncio").2.requireImport "set_interval_frequency"
    "from poll import set_interval_frequency").2.registerTask name).enterTask

namespace Generator

open Generation

variable {g : Generator} {b : Block}

/-- A question about a block is answered as the generator does, which leaves another pass. -/
def answers (g : Generator) (b : Block) (query : Query) (pass : Pass) (answer : query.Answer)
    (after : Pass) : Prop :=
  answer = ((g.answer b (Dictionary.mapValues g.resolve b.inputs) query).run pass).1 ∧
    after = ((g.answer b (Dictionary.mapValues g.resolve b.inputs) query).run pass).2

/-- What a program leads to by such answers is what the generator makes of it. -/
theorem run_of_leads_answers {α : Type} {post : α → Pass → Prop} {p : Program α} {pass : Pass}
    (h : p.Leads (g.answers b) post pass) :
    post ((p.run (g.answer b (Dictionary.mapValues g.resolve b.inputs))).run pass).1
      ((p.run (g.answer b (Dictionary.mapValues g.resolve b.inputs))).run pass).2 := by
  let view : Pass → Pass := fun start => start
  have htracks : ∀ (query : Query) (start : Pass), g.answers b query (view start)
      ((g.answer b (Dictionary.mapValues g.resolve b.inputs) query).run start).1
      (view ((g.answer b (Dictionary.mapValues g.resolve b.inputs) query).run start).2) :=
    fun _ _ => ⟨rfl, rfl⟩
  exact Program.Leads.run htracks h

/-- The fragment is the function of a task around the code of its body, which was emitted
    while the task was open. The task is closed afterwards. -/
def Encloses (g : Generator) (b : Block) (context : Context) (name : String) (interval : Float)
    (f : Fragment) (after : Pass) : Prop :=
  ∃ body events mid,
    Yields (g.bodyOf b "DO" (Dictionary.get? (Dictionary.mapValues g.resolve b.inputs) "DO"))
        ⟨context.openTask name, events⟩ body mid ∧
      after.context = mid.context.leaveTask ∧
      f = .statement (Emitters.taskFunction name g.indent body interval)

/-- A task chooses its name, and asks for its body when it is open. -/
theorem leads_body (g : Generator) (b : Block) (pass : Pass) :
    (Emitters.taskDefinition b g.indent).run.Leads (g.answers b)
      (fun result after => ∀ f, result = .ok f → ∃ id interval,
        g.fieldText b "TASK_ID" = .ok id ∧ g.fieldNumber b "INTERVAL" = .ok interval ∧
          g.Encloses b pass.context (TaskName.choose pass.context.tasks (nameFragment id))
            interval f after) pass := by
  rintro - _ ⟨-, rfl⟩
  rintro - _ ⟨-, rfl⟩
  rintro id _ ⟨hid, rfl⟩
  cases id with
  | error e => exact fun _ hf => nomatch hf
  | ok id =>
  rintro interval _ ⟨hinterval, rfl⟩
  cases interval with
  | error e => exact fun _ hf => nomatch hf
  | ok interval =>
  rintro recorded _ ⟨rfl, rfl⟩
  -- whatever was reported by then, the task is open when its body is asked for
  have rest : ∀ (name : String) (start : Pass),
      (start.context.registerTask name).enterTask = pass.context.openTask name →
      Program.Leads (g.answers b)
        (fun result after => ∀ f, result = .ok f →
          g.Encloses b pass.context name interval f after)
        (ExceptT.run do
          Emit.perform (.registerTask name)
          Emit.perform .enterTask
          let body ← Emit.ask (.body "DO")
          Emit.perform .leaveTask
          return Fragment.statement
            (Emitters.taskFunction name g.indent (← Emit.check body) interval))
        start := by
    intro name start hstart
    rintro - _ ⟨-, rfl⟩
    rintro - _ ⟨-, rfl⟩
    rintro body _ ⟨hbody, rfl⟩
    rintro - _ ⟨-, rfl⟩
    cases body with
    | error e => exact fun _ hf => nomatch hf
    | ok body =>
      rintro f hf
      cases hf
      exact ⟨body, start.events, _, Prod.ext (hstart ▸ hbody.symm) (hstart ▸ rfl), rfl, rfl⟩
  dsimp only [Program.bind, Function.comp_apply, ExceptT.bindCont]
  split
  · rintro - _ ⟨-, rfl⟩
    exact (rest _ _ rfl).mono fun _ _ h f hf => ⟨id, interval, hid.symm, hinterval.symm, h f hf⟩
  · exact (rest _ _ rfl).mono fun _ _ h f hf => ⟨id, interval, hid.symm, hinterval.symm, h f hf⟩

/-- The body of a block is what its chain gives, one level deeper. -/
theorem exists_chain_of_body {slot body : String} {pass after : Pass}
    (h : Yields (g.bodyOf b slot ((b.input? slot).map g.resolve)) pass body after) :
    ∃ codes, Yields (g.statementCodes (Block.chainOf (b.input? slot))) pass codes after ∧
      body = Text.indentLines g.indent (String.join codes) := by
  rw [bodyOf_eq] at h
  obtain ⟨kind, _, hkind, h⟩ := yields_bind.mp h
  obtain ⟨-, rfl⟩ := yields_check.mp hkind
  cases kind with
  | body =>
    obtain ⟨code, _, hcode, h⟩ := yields_bind.mp h
    obtain ⟨rfl, rfl⟩ := yields_pure.mp h
    cases hinput : b.input? slot with
    | none =>
      rw [hinput] at hcode
      obtain ⟨rfl, rfl⟩ := yields_pure.mp hcode
      exact ⟨[], yields_pure.mpr ⟨rfl, rfl⟩, rfl⟩
    | some first =>
      rw [hinput] at hcode
      obtain ⟨codes, hcodes, rfl⟩ := exists_codes_of_chain hcode
      exact ⟨codes, hcodes, rfl⟩
  | _ => cases h

/-- What stands in the body of a task is what the enabled blocks of its chain are emitted to,
    one after the other, while the task is open. -/
theorem emitted_body (hplain : g.Plain) (htask : b.type = taskType) {pass after : Pass}
    {f : Fragment} (h : Yields (g.resolve b).emitted pass f after) :
    ∃ interval codes,
      g.fieldNumber b "INTERVAL" = .ok interval ∧
      f = .statement (Emitters.taskFunction (TaskName.choose pass.context.tasks b.taskId) g.indent
        (Text.indentLines g.indent (String.join codes)) interval) ∧
      let opened := pass.context.openTask (TaskName.choose pass.context.tasks b.taskId)
      let body := (g.statementCodes (Block.chainOf (b.input? "DO"))).outcome opened
      body.result = .ok codes ∧ after.context = body.context.leaveTask := by
  rcases hplain b.type with ⟨-, hemitter⟩ | ⟨e, he, hname, htype, hemitter⟩
  · rw [resolve_emitted, emit, hemitter] at h
    cases h
  obtain rfl := builtin_task he (hname.trans htask)
  have hleads := run_of_leads_answers (leads_body g b (pass.report (.emitting b.id b.type)))
  rw [resolve_emitted, emit, hemitter] at h
  obtain ⟨hresult, rfl⟩ := Prod.ext_iff.mp h
  obtain ⟨id, interval, hid, hinterval, body, events, mid, hbody, hafter, rfl⟩ :=
    hleads f hresult
  rw [get?_resolved] at hbody
  obtain ⟨codes, hcodes, rfl⟩ := exists_chain_of_body hbody
  obtain rfl : id = b.textOr "TASK_ID" "01" := fieldText_eq_text htype rfl hid
  obtain ⟨hbodyResult, hbodyContext⟩ := hcodes.outcome (disregardsReport_statementCodes g _)
  exact ⟨interval, codes, hinterval, rfl, hbodyResult,
    hafter.trans (congrArg Context.leaveTask hbodyContext.symm)⟩

section Passes

variable (hplain : g.Plain) (hblank : Text.allBlank g.indent.toList = true)
  (hline : '\n' ∉ g.indent.toList)

include hplain hblank hline

/-- The code of every statement is made of complete lines. -/
theorem standsAlone_emitted (b : Block) {pass after : Pass} {code : String}
    (h : Yields (g.resolve b).emitted pass (.statement code) after) : StandsAlone code := by
  -- a task has the blocks of a whole chain in it, so the induction is on chains
  suffices hchain : ∀ c ∈ b.chain, ∀ (pass after : Pass) (code : String),
      Yields (g.resolve c).emitted pass (.statement code) after → StandsAlone code by
    refine hchain b ?_ pass after code h
    rw [Block.chain_eq]
    exact List.mem_cons_self
  clear h
  induction b using Block.tree_induction with
  | step b inputs next =>
    rw [Block.chain_eq]
    intro c hc pass after code h
    rcases List.mem_cons.mp hc with rfl | hc
    · by_cases htask : c.type = taskType
      · obtain ⟨interval, codes, -, hcode, hcodes, -⟩ := emitted_body hplain htask h
        obtain rfl := Fragment.statement.inj hcode
        obtain ⟨events, hyields⟩ := yields_of_result hcodes
        have hstand : ∀ code ∈ codes, StandsAlone code := by
          intro code hmem
          obtain ⟨inner, hinner, start, mid, hemitted⟩ :=
            exists_of_mem_statementCodes hyields hmem
          cases hinput : c.input? "DO" with
          | none =>
            rw [hinput] at hinner
            cases hinner
          | some first =>
            rw [hinput] at hinner
            exact inputs "DO" first hinput inner hinner start mid code hemitted
        exact standsAlone_taskFunction hline (not_mem_choose _ c) interval (lines_join hstand)
          (solid_flatMap_rows hstand)
      · have hstanding := (ensures_standing_emitted hplain hblank hline htask pass.tasks pass rfl).2
        rw [Yields] at h
        rw [h] at hstanding
        exact hstanding _ rfl code rfl
    · cases hnext : b.next with
      | none =>
        rw [hnext] at hc
        cases hc
      | some follower =>
        rw [hnext] at hc
        exact next follower hnext c hc pass after code h

end Passes

/-- The code of every statement that the default generator emits stands alone, whatever the
    width of its indentation. The code of a task consists of the line of its function, the
    line of the loop one level deep, and two levels deep the line for the interval, the lines
    of what the enabled blocks of its chain are emitted to while it is open, and the line on
    which it waits. -/
theorem standsAlone_emitBlock {width : Nat} {g : Generator}
    (built : (Builder.default.indentWidth width).build = .ok g) (b : Block) (c : Context) :
    (∀ code, (g.emitBlock b c).result = .ok (.statement code) → StandsAlone code) ∧
      (b.type = taskType → ∀ f, (g.emitBlock b c).result = .ok f →
        ∃ code interval codes, f = .statement code ∧ g.fieldNumber b "INTERVAL" = .ok interval ∧
          let name := TaskName.choose c.tasks b.taskId
          let emitted :=
            (g.statementCodes (Block.chainOf (b.input? "DO"))).outcome (c.openTask name)
          let body := codes.flatMap fun code => Text.rows code.toList
          emitted.result = .ok codes ∧
            (g.emitBlock b c).context = emitted.context.leaveTask ∧
            (∀ code ∈ codes, StandsAlone code) ∧
            Text.lines (String.join codes).toList = body ++ [[]] ∧
            Text.lines code.toList = taskLines name g.indent.toList interval body ++ [[]]) := by
  obtain ⟨hplain, -⟩ := Builder.plain_of_build built
  obtain ⟨hblank, hline⟩ := indent_of_build built
  refine ⟨fun code h => ?_, fun htask f h => ?_⟩
  · obtain ⟨events, hyields⟩ := yields_of_result h
    exact standsAlone_emitted hplain hblank hline b hyields
  · obtain ⟨events, hyields⟩ := yields_of_result h
    obtain ⟨interval, codes, hinterval, rfl, hcodes, hcontext⟩ :=
      emitted_body hplain htask hyields
    obtain ⟨events, hemitted⟩ := yields_of_result hcodes
    have hstand : ∀ code ∈ codes, StandsAlone code := by
      intro code hmem
      obtain ⟨inner, -, start, mid, hinner⟩ := exists_of_mem_statementCodes hemitted hmem
      exact standsAlone_emitted hplain hblank hline inner hinner
    exact ⟨_, interval, codes, rfl, hinterval, hcodes, hcontext, hstand, lines_join hstand,
      lines_taskFunction hline (not_mem_choose _ b) interval (lines_join hstand)
        (solid_flatMap_rows hstand)⟩

/-- A task that polls a device, whose code takes several lines, skips a disabled block, and
    writes to the log. -/
def pollTask : Block :=
  let config : Block := ⟨"c", "TCP_config", true, [], [], none⟩
  let poll : Block := ⟨"p", "modbus_pull_data", true, [], [("CONFIG", config)], none⟩
  let log : Block := ⟨"l", "modbus_log", true, [], [], none⟩
  let skipped : Block := ⟨"s", "set_modbus_interval", false, [], [], some log⟩
  let first : Block := ⟨"v", "variables_set", true, [], [("VALUE", poll)], some skipped⟩
  ⟨"t", taskType, true, [], [("DO", first)], none⟩

/-- The body of the task has the lines of its two enabled blocks. -/
theorem lines_pollTask : ∃ code codes,
    (fourBlanks.emitBlock pollTask (Context.withIndent "    ")).result = .ok (.statement code) ∧
      StandsAlone code ∧ (∀ code ∈ codes, StandsAlone code) ∧
      ((fourBlanks.statementCodes (Block.chainOf (pollTask.input? "DO"))).outcome
        ((Context.withIndent "    ").openTask "task_01_loop")).result = .ok codes ∧
      Text.lines code.toList = taskLines "task_01_loop" "    ".toList 15
        (codes.flatMap fun code => Text.rows code.toList) ++ [[]] := by
  obtain ⟨hstand, htask⟩ := standsAlone_emitBlock (Builder.build_default 4) pollTask
    (Context.withIndent "    ")
  have hsome : (fourBlanks.emitBlock pollTask (Context.withIndent "    ")).result.toOption.isSome =
      true := by decide +kernel
  cases hresult : (fourBlanks.emitBlock pollTask (Context.withIndent "    ")).result with
  | error e =>
    rw [hresult] at hsome
    cases hsome
  | ok f =>
    obtain ⟨code, interval, codes, rfl, hinterval, hcodes, -, hcodesStand, -, hlines⟩ :=
      htask rfl f hresult
    have hfifteen : fourBlanks.fieldNumber pollTask "INTERVAL" = .ok 15 := by decide +kernel
    obtain rfl : 15 = interval := Except.ok.inj (hfifteen.symm.trans hinterval)
    have hname : TaskName.choose [] pollTask.taskId = "task_01_loop" := by decide +kernel
    exact ⟨code, codes, rfl, hstand code hresult, hcodesStand, hname ▸ hcodes, hname ▸ hlines⟩

end Generator

end PollScript
