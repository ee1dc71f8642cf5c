import PollScript.Proofs.Lines
import PollScript.Script.Alarm

/-!
# The helper function that scripts call

The alarm rule is used twice, and the two uses agree: called with a reading and three
thresholds, the printed helper function returns the name of the level that the rule gives.
The function is read from its text line by line, as a chain of branches that each compare the
reading with thresholds and return a text, and the first branch whose comparisons hold decides.
Thresholds may stand in any order, and no number is left out: a value that is not comparable
fails the same comparisons in both.

Results:

* `function?_of_clauses`: printed clauses are read as their branches.
* `find?_branches`: running the branches is evaluating the rule.
* `helperDefinition_evaluates`: a call of the helper function returns the level of the reading.
-/

namespace PollScript.Script.Alarm

/-! ## Reading a function -/

/-- A comparison of the reading with a threshold. -/
inductive Comparison where
  | atLeast (threshold : Threshold)
  | below (threshold : Threshold)
deriving DecidableEq, Repr

/-- Whether a comparison holds. -/
def Comparison.holds (value : Float) (thresholds : Thresholds) : Comparison → Bool
  | .atLeast threshold => value ≥ thresholds.get threshold
  | .below threshold => value < thresholds.get threshold

/-- A branch of a function. -/
structure Branch where
  guard : List Comparison
  result : String
deriving DecidableEq, Repr

/-- The words of a line, of which any two have a space between them. -/
def words (line : List Char) : List String :=
  (line.splitOn ' ').map String.ofList

/-- How many spaces a line begins with. -/
def margin (line : List Char) : Nat :=
  (line.takeWhile (· == ' ')).length

/-- A line behind the spaces that it begins with. -/
def content (line : List Char) : List Char :=
  line.dropWhile (· == ' ')

/-- The threshold that a parameter stands for. -/
def threshold? : String → Option Threshold
  | "lv1" => some .lv1
  | "lv2" => some .lv2
  | "lv3" => some .lv3
  | _ => none

/-- Reads a comparison from its three words. -/
def comparison? (left relation right : String) : Option Comparison := do
  let threshold ← threshold? right
  match left, relation with
  | "val", ">=" => some (.atLeast threshold)
  | "val", "<" => some (.below threshold)
  | _, _ => none

/-- Reads comparisons that must all hold. -/
def conjunction? : List String → Option (List Comparison)
  | [left, relation, right] => (comparison? left relation right).map ([·])
  | left :: relation :: right :: "and" :: rest => do
    return (← comparison? left relation right) :: (← conjunction? rest)
  | _ => none

/-- Reads the condition of a branch. The first branch begins with `if` and the others with
    `elif`. -/
def guard? (first : Bool) (head : List Char) : Option (List Comparison) :=
  match head.getLast?, words head.dropLast with
  | some ':', keyword :: condition =>
    if keyword = (if first then "if" else "elif") then conjunction? condition else none
  | _, _ => none

/-- Reads a text between quotes, in which nothing is escaped. -/
def literal? (word : String) : Option String :=
  match word.toList with
  | '"' :: rest =>
    if rest.getLast? = some '"' ∧ rest.dropLast.all (fun c => c != '"' && c != '\\') then
      some (String.ofList rest.dropLast)
    else none
  | _ => none

/-- Reads the text that a statement returns. -/
def returned? (statement : List Char) : Option String :=
  match words statement with
  | ["return", word] => literal? word
  | _ => none

/-- Reads branches of one level, each a line with the condition and a deeper line with the
    statement. A branch without a condition ends the function, which may also end without
    one. -/
def branches? (level : Nat) (first : Bool) : List (List Char) → Option (List Branch)
  | [[]] => if first then none else some []
  | head :: body :: rest =>
    if margin head = level ∧ level < margin body then do
      let result ← returned? (content body)
      if content head = "else:".toList then
        if first = false ∧ rest = [[]] then some [⟨[], result⟩] else none
      else
        return ⟨← guard? first (content head), result⟩ :: (← branches? level false rest)
    else none
  | _ => none

/-- Reads the helper function, whose branches stand behind a margin. -/
def function? (source : String) : Option (List Branch) :=
  match Text.lines source.toList with
  | signature :: head :: rest =>
    if signature = "def evaluate_alarm(val, lv1, lv2, lv3):".toList ∧ 0 < margin head then
      branches? (margin head) true (head :: rest)
    else none
  | _ => none

/-- What a call of the function in a text returns: what its first branch returns whose
    comparisons hold. Nothing is returned if the text is no such function, or if the call
    falls through all branches. -/
def call? (source : String) (value : Float) (thresholds : Thresholds) : Option String := do
  let branches ← function? source
  let branch ← branches.find? fun branch => branch.guard.all (·.holds value thresholds)
  return branch.result

/-! ## Printed branches -/

/-- The comparisons of a clause. -/
def Clause.comparisons (clause : Clause) : List Comparison :=
  .atLeast clause.lower :: (clause.upper.map .below).toList

/-- A clause as a branch. -/
def Clause.toBranch (clause : Clause) : Branch :=
  ⟨clause.comparisons, clause.level.name⟩

theorem Clause.all_comparisons (clause : Clause) (value : Float) (thresholds : Thresholds) :
    clause.comparisons.all (·.holds value thresholds) = clause.holds value thresholds := by
  obtain ⟨level, lower, upper⟩ := clause
  cases upper with
  | none => simp [comparisons, holds, Comparison.holds]
  | some upper => simp [comparisons, holds, Comparison.holds]

/-- The words of a clause's condition. -/
def Clause.words (clause : Clause) : List String :=
  "val" :: ">=" :: clause.lower.parameter ::
    match clause.upper with
    | some upper => ["and", "val", "<", upper.parameter]
    | none => []

theorem words_intercalate {ws : List String} (hne : ws ≠ []) (h : ∀ w ∈ ws, ' ' ∉ w.toList) :
    words ([' '].intercalate (ws.map String.toList)) = ws := by
  have hchars : ∀ w ∈ ws.map String.toList, ' ' ∉ w := by
    intro w hw
    obtain ⟨word, hword, rfl⟩ := List.mem_map.mp hw
    exact h word hword
  rw [words, List.splitOn_intercalate ' ' hchars (mt List.map_eq_nil_iff.mp hne), List.map_map]
  simp

theorem Clause.toList_condition (clause : Clause) :
    clause.condition.toList = [' '].intercalate (clause.words.map String.toList) := by
  obtain ⟨level, lower, upper⟩ := clause
  cases upper with
  | none => simp [condition, words, List.intercalate_cons_cons]
  | some upper => simp [condition, words, List.intercalate_cons_cons]

theorem Threshold.blank_notMem (threshold : Threshold) {c : Char} (h : c.isWhitespace = true) :
    c ∉ threshold.parameter.toList := by
  have visible : threshold.parameter.toList.all (!·.isWhitespace) = true := by
    cases threshold <;> decide
  intro hc
  simpa [h] using List.all_eq_true.mp visible c hc

theorem Clause.space_notMem_words (clause : Clause) : ∀ w ∈ clause.words, ' ' ∉ w.toList := by
  have hparameter : ∀ threshold : Threshold, ' ' ∉ threshold.parameter.toList :=
    fun threshold => threshold.blank_notMem (by decide)
  obtain ⟨level, lower, upper⟩ := clause
  cases upper with
  | none => simp [words, hparameter]
  | some upper => simp [words, hparameter]

theorem threshold?_parameter (threshold : Threshold) :
    threshold? threshold.parameter = some threshold := by
  cases threshold <;> rfl

theorem Clause.conjunction?_words (clause : Clause) :
    conjunction? clause.words = some clause.comparisons := by
  obtain ⟨level, lower, upper⟩ := clause
  cases upper with
  | none => simp [words, conjunction?, comparison?, threshold?_parameter, comparisons]
  | some upper => simp [words, conjunction?, comparison?, threshold?_parameter, comparisons]

/-- The line of a clause's condition without its margin. -/
def Clause.head (clause : Clause) (first : Bool) : List Char :=
  ((if first then "if " else "elif ") ++ clause.condition ++ ":").toList

theorem Clause.head?_head (clause : Clause) (first : Bool) :
    (clause.head first).head? ≠ some ' ' := by
  rw [head, String.toList_append, String.toList_append]
  cases first <;> simp

theorem Clause.head_ne_else (clause : Clause) (first : Bool) :
    clause.head first ≠ "else:".toList := by
  rw [head, String.toList_append, String.toList_append]
  cases first <;> simp

theorem Clause.lineFeed_notMem (clause : Clause) (first : Bool) :
    '\n' ∉ ((if first then "if " else "elif ") ++ clause.condition).toList := by
  have hparameter : ∀ threshold : Threshold, '\n' ∉ threshold.parameter.toList :=
    fun threshold => threshold.blank_notMem (by decide)
  obtain ⟨level, lower, upper⟩ := clause
  cases upper with
  | none => cases first <;> simp [condition, hparameter]
  | some upper => cases first <;> simp [condition, hparameter]

/-- A printed condition is read as the comparisons of its clause. -/
theorem Clause.guard?_head (clause : Clause) (first : Bool) :
    guard? first (clause.head first) = some clause.comparisons := by
  have hhead : clause.head first =
      [' '].intercalate (((if first then "if" else "elif") :: clause.words).map String.toList) ++
        [':'] := by
    rw [head, String.toList_append, String.toList_append, toList_condition]
    cases first <;> rfl
  have hspaces : ∀ w ∈ (if first then "if" else "elif") :: clause.words, ' ' ∉ w.toList := by
    rw [List.forall_mem_cons]
    exact ⟨by cases first <;> decide, clause.space_notMem_words⟩
  rw [guard?, hhead, List.getLast?_concat, List.dropLast_concat,
    words_intercalate (List.cons_ne_nil _ _) hspaces]
  show (if _ = _ then _ else _) = _
  rw [if_pos rfl, conjunction?_words]

/-- The line with the statement of a level without its margin. -/
def AlarmLevel.statement (level : AlarmLevel) : List Char :=
  ("return \"" ++ level.name ++ "\"").toList

theorem AlarmLevel.head?_statement (level : AlarmLevel) :
    (AlarmLevel.statement level).head? ≠ some ' ' := by
  cases level <;> decide

theorem returned?_statement (level : AlarmLevel) :
    returned? (AlarmLevel.statement level) = some level.name := by
  cases level <;> rfl

/-! ## Reading what is printed -/

section

variable {width : Nat} {line : List Char}

/-- The margin of a line is what stands before it, unless the line has one itself. -/
theorem margin_replicate (h : line.head? ≠ some ' ') :
    margin (List.replicate width ' ' ++ line) = width := by
  have hline : line.takeWhile (· == ' ') = [] := by
    cases line with
    | nil => rfl
    | cons c cs => exact List.takeWhile_cons_of_neg (by simpa using h)
  rw [margin, List.takeWhile_append_of_pos (by simp), hline, List.append_nil,
    List.length_replicate]

theorem content_replicate (h : line.head? ≠ some ' ') :
    content (List.replicate width ' ' ++ line) = line := by
  have hline : line.dropWhile (· == ' ') = line := by
    cases line with
    | nil => rfl
    | cons c cs => exact List.dropWhile_cons_of_neg (by simpa using h)
  rw [content, List.dropWhile_append_of_pos (by simp), hline]

end

/-- The two lines of a printed branch, behind which the other lines stand. -/
theorem lines_branch {width : Nat} {indent introduction : String}
    (hindent : indent.toList = List.replicate width ' ') (hline : '\n' ∉ introduction.toList)
    (level : AlarmLevel) (rest : List Char) :
    Text.lines ((branch indent introduction level).toList ++ rest) =
      (List.replicate width ' ' ++ (introduction ++ ":").toList) ::
        (List.replicate (width + width) ' ' ++ AlarmLevel.statement level) :: Text.lines rest := by
  have hbranch : (branch indent introduction level).toList ++ rest =
      (List.replicate width ' ' ++ (introduction ++ ":").toList) ++
        '\n' :: ((List.replicate (width + width) ' ' ++ AlarmLevel.statement level) ++
          '\n' :: rest) := by
    simp [branch, AlarmLevel.statement, hindent, ← List.replicate_append_replicate]
  have hhead : '\n' ∉ List.replicate width ' ' ++ (introduction ++ ":").toList := by
    simp [hline]
  have hstatement : '\n' ∉ List.replicate (width + width) ' ' ++ AlarmLevel.statement level := by
    have hlevel : '\n' ∉ AlarmLevel.statement level := by cases level <;> decide
    simp [hlevel]
  rw [hbranch, Text.lines_append_line hhead, Text.lines_append_line hstatement]

theorem lines_clause {width : Nat} {indent : String}
    (hindent : indent.toList = List.replicate width ' ') (clause : Clause) (first : Bool)
    (rest : List Char) :
    Text.lines ((clause.branch indent first).toList ++ rest) =
      (List.replicate width ' ' ++ clause.head first) ::
        (List.replicate (width + width) ' ' ++ AlarmLevel.statement clause.level) ::
          Text.lines rest :=
  lines_branch hindent (clause.lineFeed_notMem first) clause.level rest

/-- The two lines of a branch are read, and then the other lines. -/
theorem branches?_lines {width : Nat} (hwidth : 0 < width) (first : Bool) {head : List Char}
    (hhead : head.head? ≠ some ' ') (level : AlarmLevel) (rest : List (List Char)) :
    branches? width first ((List.replicate width ' ' ++ head) ::
        (List.replicate (width + width) ' ' ++ AlarmLevel.statement level) :: rest) =
      if head = "else:".toList then
        if first = false ∧ rest = [[]] then some [⟨[], level.name⟩] else none
      else (guard? first head).bind fun guard =>
        (branches? width false rest).map (⟨guard, level.name⟩ :: ·) := by
  rw [branches?, margin_replicate hhead, margin_replicate (AlarmLevel.head?_statement level),
    content_replicate hhead, content_replicate (AlarmLevel.head?_statement level),
    if_pos ⟨rfl, by omega⟩, returned?_statement]
  simp only [Option.bind_eq_bind, Option.bind_some, Option.pure_def, Option.map_eq_bind]
  rfl

/-- A printed branch with a condition is read in front of the others. -/
theorem branches?_clause {width : Nat} (hwidth : 0 < width) (clause : Clause) (first : Bool)
    (rest : List (List Char)) :
    branches? width first ((List.replicate width ' ' ++ clause.head first) ::
        (List.replicate (width + width) ' ' ++ AlarmLevel.statement clause.level) :: rest) =
      (branches? width false rest).map (clause.toBranch :: ·) := by
  rw [branches?_lines hwidth first (clause.head?_head first), if_neg (clause.head_ne_else first),
    clause.guard?_head, Option.bind_some, Clause.toBranch]

/-- A printed branch without a condition ends the function. -/
theorem branches?_otherwise {width : Nat} (hwidth : 0 < width) (level : AlarmLevel) :
    branches? width false [List.replicate width ' ' ++ "else:".toList,
        List.replicate (width + width) ' ' ++ AlarmLevel.statement level, []] =
      some [⟨[], level.name⟩] := by
  rw [branches?_lines hwidth false (by decide), if_pos rfl, if_pos ⟨rfl, rfl⟩]

/-- Printed clauses behind each other are read as their branches. -/
theorem branches?_clauses {width : Nat} (hwidth : 0 < width) {indent : String}
    (hindent : indent.toList = List.replicate width ' ') (clauses : List Clause)
    (level : AlarmLevel) :
    branches? width false (Text.lines
        (clauses.flatMap (fun clause => (clause.branch indent false).toList) ++
          (branch indent "else" level).toList)) =
      some (clauses.map Clause.toBranch ++ [⟨[], level.name⟩]) := by
  induction clauses with
  | nil =>
    have hline : '\n' ∉ "else".toList := by decide
    have hlines := lines_branch hindent hline level []
    rw [List.append_nil] at hlines
    rw [List.flatMap_nil, List.nil_append, hlines]
    exact branches?_otherwise hwidth level
  | cons clause rest ih =>
    rw [List.flatMap_cons, List.append_assoc, lines_clause hindent, branches?_clause hwidth, ih]
    rfl

theorem toList_branches (indent : String) (first : Clause) (rest : List Clause) :
    (branches indent (first :: rest)).toList = (first.branch indent true).toList ++
      rest.flatMap fun clause => (clause.branch indent false).toList := by
  have hfold : ∀ code : String,
      (rest.foldl (fun code clause => code ++ clause.branch indent false) code).toList =
        code.toList ++ rest.flatMap fun clause => (clause.branch indent false).toList := by
    induction rest with
    | nil => simp
    | cons clause rest ih =>
      intro code
      rw [List.foldl_cons, ih, String.toList_append, List.append_assoc, List.flatMap_cons]
  exact hfold _

/-- Clauses that are printed as a function are read as their branches, behind which stands the
    branch without a condition. -/
theorem function?_of_clauses {width : Nat} (hwidth : 0 < width) {indent : String}
    (hindent : indent.toList = List.replicate width ' ') (first : Clause) (rest : List Clause)
    (level : AlarmLevel) :
    function? ("def " ++ helperName ++ "(val, lv1, lv2, lv3):\n" ++
        branches indent (first :: rest) ++ branch indent "else" level) =
      some ((first :: rest).map Clause.toBranch ++ [⟨[], level.name⟩]) := by
  have hsignature : ("def " ++ helperName ++ "(val, lv1, lv2, lv3):\n").toList =
      "def evaluate_alarm(val, lv1, lv2, lv3):".toList ++ ['\n'] := rfl
  rw [function?, String.toList_append, String.toList_append, toList_branches, hsignature,
    List.append_assoc, List.append_assoc, List.append_assoc, List.singleton_append,
    Text.lines_append_line (by decide), lines_clause hindent]
  dsimp only
  rw [margin_replicate (first.head?_head true), if_pos ⟨rfl, hwidth⟩, branches?_clause hwidth,
    branches?_clauses hwidth hindent]
  rfl

/-! ## Running what was read -/

/-- The first branch whose comparisons hold returns the name of the level that the first
    clause gives whose band holds the reading. -/
theorem find?_branches (clauses : List Clause) (level : AlarmLevel) (value : Float)
    (thresholds : Thresholds) :
    ((clauses.map Clause.toBranch ++ [(⟨[], level.name⟩ : Branch)]).find? fun branch =>
        branch.guard.all (·.holds value thresholds)).map (·.result) =
      some ((clauses.find? (·.holds value thresholds)).elim level (·.level)).name := by
  induction clauses with
  | nil => rfl
  | cons clause rest ih =>
    rw [List.map_cons, List.cons_append, List.find?_cons, List.find?_cons, Clause.toBranch,
      clause.all_comparisons]
    cases clause.holds value thresholds with
    | true => rfl
    | false => exact ih

/-- With any indentation by spaces, a call of the helper function returns the name of the
    level of the reading, whatever numbers it is called with. -/
theorem helperDefinition_evaluates {indent : String} (hne : indent ≠ "")
    (hspaces : ∀ c ∈ indent.toList, c = ' ') (value : Float) (thresholds : Thresholds) :
    call? (helperDefinition indent) value thresholds = some (evaluate value thresholds).name := by
  have hindent : indent.toList = List.replicate indent.toList.length ' ' :=
    List.eq_replicate_of_mem hspaces
  have hwidth : 0 < indent.toList.length :=
    List.length_pos_iff.mpr fun h => hne (String.toList_eq_nil_iff.mp h)
  have hread : function? (helperDefinition indent) =
      some (clauses.map Clause.toBranch ++ [⟨[], AlarmLevel.lv0.name⟩]) :=
    function?_of_clauses hwidth hindent _ _ .lv0
  have hrun := find?_branches clauses .lv0 value thresholds
  have hlevel : (clauses.find? (·.holds value thresholds)).elim .lv0 (·.level) =
      evaluate value thresholds := by
    rw [evaluate]
    cases clauses.find? (·.holds value thresholds) <;> rfl
  rw [hlevel] at hrun
  rw [call?, hread, ← hrun]
  show ((_ : Option Branch).bind fun branch => some branch.result) = _
  rw [Option.map_eq_bind]
  rfl

/-- Thresholds may be out of order, and what is no number is in no band. -/
theorem helperDefinition_evaluates_unordered :
    call? (helperDefinition "  ") 45 ⟨50, 30, 40⟩ = some "LV3" ∧
      call? (helperDefinition "  ") (0 / 0) ⟨50, 30, 40⟩ = some "LV0" := by
  have hne : "  " ≠ "" := by decide
  have hspaces : ∀ c ∈ "  ".toList, c = ' ' := by simp
  have hhigh : evaluate 45 ⟨50, 30, 40⟩ = .lv3 := by decide
  have hnone : evaluate (0 / 0) ⟨50, 30, 40⟩ = .lv0 := by decide
  refine ⟨?_, ?_⟩
  · rw [helperDefinition_evaluates hne hspaces, hhigh]
    rfl
  · rw [helperDefinition_evaluates hne hspaces, hnone]
    rfl

end PollScript.Script.Alarm
