import Mathlib.Data.List.DropRight
import PollScript.Proofs.Dictionaries
import PollScript.Script.Context

/-!
# The history of a context

A context is changed by seven operations in any order. What it shows follows from the
operations since it was last emptied, by a reset or by finalising: the first request of
each key, all tasks, and how many task bodies are open.

Results:

* `firstRequests_concat`: a further request counts if its key is new.
* `Logs.apply`: an operation changes a context and its log alike.
* `shows_after`: at every point of its history, a context shows what the log says.
-/

namespace PollScript.Script.Context

/-! ## Logs -/

namespace Operation

/-- Whether the operation empties the context. -/
def clears : Operation → Bool
  | .reset | .finalize _ => true
  | _ => false

/-- The key and the line of a requested import. -/
def importRequest? : Operation → Option (String × String)
  | .requireImport key line => some (key, line)
  | _ => none

/-- The key and the code of a requested helper. -/
def helperRequest? : Operation → Option (String × String)
  | .provideHelper key code => some (key, code)
  | _ => none

/-- The name of a registered task. -/
def taskName? : Operation → Option String
  | .registerTask name => some name
  | _ => none

/-- How many task bodies are open after the operation. -/
def bodies (before : Nat) : Operation → Nat
  | .enterTask => before + 1
  | .leaveTask => before - 1
  | _ => before

end Operation

/-- The operations since the context was last emptied. -/
def sinceCleared (history : List Operation) : List Operation :=
  history.rtakeWhile fun operation => !operation.clears

/-- The requested imports of a log. -/
def importRequests (log : List Operation) : List (String × String) :=
  log.filterMap Operation.importRequest?

/-- The requested helpers of a log. -/
def helperRequests (log : List Operation) : List (String × String) :=
  log.filterMap Operation.helperRequest?

/-- The registered tasks of a log, repeated ones included. -/
def registeredTasks (log : List Operation) : List String :=
  log.filterMap Operation.taskName?

/-- How many task bodies are open after a log. Closing one where none is open does not
    count. -/
def openBodies (log : List Operation) : Nat :=
  log.foldl Operation.bodies 0

/-- The requests whose key no request before them has. -/
def firstRequests (requests : List (String × String)) : List (String × String) :=
  (requests.zipIdx.filter fun entry =>
    entry.1.1 ∉ (requests.take entry.2).map (·.1)).map (·.1)

/-- A further request counts if its key is new. -/
theorem firstRequests_concat (requests : List (String × String)) (request : String × String) :
    firstRequests (requests ++ [request]) =
      firstRequests requests ++
        if request.1 ∈ requests.map (·.1) then [] else [request] := by
  have hearlier : ∀ entry ∈ requests.zipIdx,
      (requests ++ [request]).take entry.2 = requests.take entry.2 := by
    intro entry hentry
    have hlt := (List.mem_zipIdx' hentry).1
    exact List.take_append_of_le_length (Nat.le_of_lt hlt)
  have hfront : requests.zipIdx.filter (fun entry =>
      entry.1.1 ∉ ((requests ++ [request]).take entry.2).map (·.1)) =
      requests.zipIdx.filter fun entry =>
        entry.1.1 ∉ (requests.take entry.2).map (·.1) :=
    List.filter_congr fun entry hentry => by rw [hearlier entry hentry]
  rw [firstRequests, List.zipIdx_append, List.filter_append, hfront, List.map_append, firstRequests]
  congr 1
  by_cases hknown : request.1 ∈ requests.map (·.1)
  · simp_all
  · simp_all

/-- The keys that were requested are those whose first request counts. -/
theorem mem_keys_firstRequests {requests : List (String × String)} {key : String} :
    key ∈ (firstRequests requests).map (·.1) ↔ key ∈ requests.map (·.1) := by
  induction requests using List.reverseRecOn with
  | nil => rfl
  | append_singleton requests request ih =>
    rw [firstRequests_concat, List.map_append, List.mem_append, List.map_append, List.mem_append,
      ih]
    split
    · next hknown =>
      simp only [List.map_nil, List.not_mem_nil, or_false, List.map_cons, List.mem_singleton,
        iff_self_or]
      rintro rfl
      exact hknown
    · rfl

/-- A request is added to the first ones if its key is new. -/
theorem request_firstRequests (key text : String) (requests : List (String × String)) :
    request key text (firstRequests requests) =
      (decide (key ∉ requests.map (·.1)), firstRequests (requests ++ [(key, text)])) := by
  have hknown : Dictionary.has (firstRequests requests) key = true ↔ key ∈ requests.map (·.1) :=
    Dictionary.has_iff.trans mem_keys_firstRequests
  rw [firstRequests_concat, request]
  by_cases hmem : key ∈ requests.map (·.1)
  · rw [if_pos (hknown.mpr hmem), if_pos hmem, List.append_nil]
    simp [hmem]
  · rw [if_neg (mt hknown.mp hmem), if_neg hmem]
    simp [hmem]

/-- So a request that may be absent is added. -/
theorem elim_request (request? : Option (String × String)) (requests : List (String × String)) :
    (request?.elim (firstRequests requests) fun entry =>
        (request entry.1 entry.2 (firstRequests requests)).2) =
      firstRequests (requests ++ request?.toList) := by
  cases request? with
  | none => rw [Option.elim_none, Option.toList_none, List.append_nil]
  | some entry => rw [Option.elim_some, request_firstRequests, Option.toList_some]

/-! ## The step and the run -/

/-- An operation that does not empty the context requests, registers, opens or closes what
    it says, and nothing else. -/
theorem apply_of_not_clears (c : Context) {operation : Operation}
    (h : operation.clears = false) :
    (c.apply operation).2 =
      { c with
        imports := operation.importRequest?.elim c.imports fun entry =>
          (request entry.1 entry.2 c.imports).2
        helpers := operation.helperRequest?.elim c.helpers fun entry =>
          (request entry.1 entry.2 c.helpers).2
        tasks := c.tasks ++ operation.taskName?.toList
        taskDepth := operation.bodies c.taskDepth } := by
  cases operation with
  | registerTask name => rfl
  | reset => cases h
  | finalize code => cases h
  | _ =>
    simp only [Operation.taskName?, Option.toList_none, List.append_nil]
    rfl

/-- An operation that empties the context leaves what a context begins with. -/
theorem apply_of_clears (c : Context) {operation : Operation} (h : operation.clears = true) :
    (c.apply operation).2 = withIndent c.indent := by
  cases operation with
  | reset => rfl
  | finalize code => exact finalize_snd code c
  | _ => cases h

/-- The context holds what the log says. -/
structure Logs (c : Context) (log : List Operation) : Prop where
  imports : c.imports = firstRequests (importRequests log)
  helpers : c.helpers = firstRequests (helperRequests log)
  tasks : c.tasks = registeredTasks log
  depth : c.taskDepth = openBodies log

theorem logs_withIndent (indent : String) : Logs (withIndent indent) [] :=
  ⟨rfl, rfl, rfl, rfl⟩

theorem filterMap_concat {α β : Type} (f : α → Option β) (items : List α) (a : α) :
    (items ++ [a]).filterMap f = items.filterMap f ++ (f a).toList := by
  rw [List.filterMap_append]
  cases h : f a with
  | none => rw [List.filterMap_cons_none h]; rfl
  | some b => rw [List.filterMap_cons_some h]; rfl

/-- An operation changes a context and its log alike. -/
theorem Logs.apply {c : Context} {log : List Operation} (h : Logs c log)
    (operation : Operation) :
    Logs (c.apply operation).2 (if operation.clears then [] else log ++ [operation]) := by
  obtain ⟨himports, hhelpers, htasks, hdepth⟩ := h
  cases hclears : operation.clears with
  | true =>
    rw [apply_of_clears c hclears]
    exact logs_withIndent c.indent
  | false =>
    rw [apply_of_not_clears c hclears]
    refine ⟨?_, ?_, ?_, ?_⟩
    · simp only [himports, elim_request, importRequests, filterMap_concat, Bool.false_eq_true,
        if_false]
    · simp only [hhelpers, elim_request, helperRequests, filterMap_concat, Bool.false_eq_true,
        if_false]
    · simp only [htasks, registeredTasks, filterMap_concat, Bool.false_eq_true, if_false]
    · simp only [hdepth, openBodies, List.foldl_concat, Bool.false_eq_true, if_false]

/-- The context after operations. -/
def after (c : Context) (history : List Operation) : Context :=
  history.foldl (fun c operation => (c.apply operation).2) c

/-- At every point of its history, a context holds what the log since it was last emptied
    says. -/
theorem logs_after (indent : String) (history : List Operation) :
    Logs ((withIndent indent).after history) (sinceCleared history) := by
  induction history using List.reverseRecOn with
  | nil => exact logs_withIndent indent
  | append_singleton history operation ih =>
    have hstep := ih.apply operation
    rw [after, List.foldl_concat, sinceCleared, List.rtakeWhile_concat]
    cases hclears : operation.clears with
    | true => simpa [hclears, after, sinceCleared] using hstep
    | false => simpa [hclears, after, sinceCleared] using hstep

/-! ## What a context shows -/

/-- What the context shows and answers is as the log says. -/
structure Shows (c : Context) (log : List Operation) : Prop where
  imports : c.recorded.imports = (firstRequests (importRequests log)).map (·.2)
  helpers : c.recorded.helpers = (firstRequests (helperRequests log)).map (·.2)
  /-- A requested import is new if its key was not requested. -/
  newImport : ∀ key line, (c.requireImport key line).1 = true ↔
    key ∉ (importRequests log).map (·.1)
  newHelper : ∀ key code, (c.provideHelper key code).1 = true ↔
    key ∉ (helperRequests log).map (·.1)
  tasks : c.recorded.tasks = registeredTasks log
  hasTask : ∀ name, c.hasTask name = true ↔ name ∈ registeredTasks log
  inTask : c.recorded.inTask = true ↔ 0 < openBodies log

theorem Logs.shows {c : Context} {log : List Operation} (h : Logs c log) : Shows c log := by
  obtain ⟨himports, hhelpers, htasks, hdepth⟩ := h
  refine ⟨?_, ?_, ?_, ?_, htasks, ?_, ?_⟩
  · rw [← himports]; rfl
  · rw [← hhelpers]; rfl
  · intro key line
    show (request key line c.imports).1 = true ↔ _
    rw [himports, request_firstRequests, decide_eq_true_iff]
  · intro key code
    show (request key code c.helpers).1 = true ↔ _
    rw [hhelpers, request_firstRequests, decide_eq_true_iff]
  · intro name
    rw [Context.hasTask, htasks, List.contains_iff_mem]
  · rw [← hdepth]
    exact decide_eq_true_iff

/-- At every point of its history, a context shows and answers what the operations since it
    was last emptied say. -/
theorem shows_after (indent : String) (history : List Operation) :
    Shows ((withIndent indent).after history) (sinceCleared history) :=
  (logs_after indent history).shows

/-- A body that is closed before any is opened does not count. -/
example : ((withIndent "  ").after [.leaveTask, .enterTask]).recorded.inTask = true := rfl

end PollScript.Script.Context
