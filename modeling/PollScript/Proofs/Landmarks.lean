import PollScript.Proofs.Fields
import PollScript.Proofs.Numerals
import PollScript.Proofs.SolidLines

/-!
# Lines that stand out

Some lines of a script stand out by how they begin: the imports, the definitions
of functions, the setup of the log and the launch of the tasks. The code that
blocks turn into has no such lines, with one exception: the code of a task begins
with the definition of its function. What a user has entered cannot make up for
one, since a line of code begins with a name of the generator, with the delimiter
of a literal, or with a name that is no keyword.

Results:

* `isClear_append`: a line that begins unlike all landmarks goes on as it likes.
* `landmarksIn_append`: the landmarks of statements are found part by part.
* `quiet_builtins`: the emitter of every built-in type but the task makes code
  without landmarks.
-/

namespace PollScript

open Script

/-! ## Beginnings of lines -/

namespace Text

/-- A line without the blanks in front. -/
def dedent (line : List Char) : List Char :=
  line.dropWhile isBlank

/-- Whether two texts have different characters in the same place. -/
def differ : List Char → List Char → Bool
  | a :: as, b :: bs => a != b || differ as bs
  | _, _ => false

theorem differ_append {as bs : List Char} (h : differ as bs = true) (more : List Char) :
    differ as (bs ++ more) = true := by
  induction as generalizing bs with
  | nil => cases h
  | cons a as ih =>
    cases bs with
    | nil => cases h
    | cons b bs =>
      rw [List.cons_append]
      simp only [differ, Bool.or_eq_true] at h ⊢
      exact h.imp_right ih

theorem not_isPrefixOf_of_differ {as bs : List Char} (h : differ as bs = true) :
    as.isPrefixOf bs = false := by
  induction as generalizing bs with
  | nil => cases h
  | cons a as ih =>
    cases bs with
    | nil => cases h
    | cons b bs =>
      simp only [differ, Bool.or_eq_true, bne_iff_ne] at h
      rw [List.isPrefixOf]
      by_cases heq : a = b
      · rw [ih (h.resolve_left (· heq)), Bool.and_false]
      · rw [beq_false_of_ne heq, Bool.false_and]

/-- Texts differ where one begins with another word, or behind the word if they
    begin with the same. -/
theorem differ_word {p : Char → Bool} {word name rest more : List Char} {c d : Char}
    (hword : ∀ a ∈ word, p a = true) (hname : ∀ a ∈ name, p a = true) (hc : p c = false)
    (hd : p d = false) (h : name ≠ word ∨ differ (c :: rest) (d :: more) = true) :
    differ (word ++ c :: rest) (name ++ d :: more) = true := by
  induction word generalizing name with
  | nil =>
    cases name with
    | nil => exact h.resolve_left (· rfl)
    | cons a name =>
      have hne : c ≠ a := by
        rintro rfl
        rw [hname c List.mem_cons_self] at hc
        cases hc
      simp [differ, hne]
  | cons b word ih =>
    cases name with
    | nil =>
      have hne : b ≠ d := by
        rintro rfl
        rw [hword b List.mem_cons_self] at hd
        cases hd
      simp [differ, hne]
    | cons a name =>
      rw [List.cons_append, List.cons_append]
      simp only [differ, Bool.or_eq_true, bne_iff_ne]
      by_cases heq : b = a
      · subst heq
        refine .inr (ih (fun x hx => hword x (List.mem_cons_of_mem _ hx))
          (fun x hx => hname x (List.mem_cons_of_mem _ hx)) ?_)
        exact h.imp_left fun hne heq => hne (by rw [heq])
      · exact .inl heq

theorem dedent_append {line : List Char} (h : dedent line ≠ []) (more : List Char) :
    dedent (line ++ more) = dedent line ++ more := by
  induction line with
  | nil => exact absurd rfl h
  | cons c line ih =>
    unfold dedent at h ih ⊢
    rw [List.cons_append]
    cases hc : isBlank c with
    | true =>
      rw [List.dropWhile_cons_of_pos hc] at h ⊢
      rw [List.dropWhile_cons_of_pos hc]
      exact ih h
    | false => simp [hc]

theorem dedent_indent {indent : List Char} (h : allBlank indent = true) (line : List Char) :
    dedent (indent ++ line) = dedent line :=
  List.dropWhile_append_of_pos (List.all_eq_true.mp h)

end Text

/-- How a line begins that stands out: a word, and what comes right behind it. -/
structure Landmark where
  word : String
  rest : String
deriving DecidableEq

namespace Landmark

/-- The definition of a function that runs as a task. -/
def asyncFunction : Landmark := ⟨"async", " def "⟩

/-- The definition of a helper function. -/
def function : Landmark := ⟨"def", " "⟩

/-- The import of a module. -/
def moduleImport : Landmark := ⟨"import", " "⟩

/-- The import of a name from a module. -/
def nameImport : Landmark := ⟨"from", " "⟩

/-- The beginning of what a script does when it is run. -/
def guard : Landmark := ⟨"if", " __name__ "⟩

/-- The call that runs the tasks together. -/
def gather : Landmark := ⟨"await", " asyncio.gather("⟩

/-- The setup of the log. -/
def logSetup : Landmark := ⟨"logging", ".basicConfig("⟩

/-- The characters of a landmark. -/
def chars (mark : Landmark) : List Char :=
  mark.word.toList ++ mark.rest.toList

/-- Whether a line begins with the landmark. -/
def begins (mark : Landmark) (line : List Char) : Bool :=
  mark.chars.isPrefixOf line

/-- Whether a line begins with the landmark, however deep it is. -/
def marks (mark : Landmark) (line : List Char) : Bool :=
  mark.begins (Text.dedent line)

end Landmark

/-- How definitions, imports, the launch of the tasks and the setup of the log
    begin. -/
def landmarks : List Landmark :=
  [.asyncFunction, .function, .moduleImport, .nameImport, .guard, .gather, .logSetup]

/-- Whether a line stands out, however deep it is. -/
def isLandmark (line : List Char) : Bool :=
  landmarks.any fun mark => mark.marks line

/-- Whether a line begins unlike all landmarks. -/
def isClear (line : List Char) : Bool :=
  landmarks.all fun mark => Text.differ mark.chars (Text.dedent line)

theorem isLandmark_of_isClear {line : List Char} (h : isClear line = true) :
    isLandmark line = false := by
  rw [isLandmark, List.any_eq_false]
  intro mark hmark
  rw [Landmark.marks, Landmark.begins,
    Text.not_isPrefixOf_of_differ (List.all_eq_true.mp h mark hmark)]
  decide

/-- A line that begins unlike all landmarks goes on as it likes. -/
theorem isClear_append {line : List Char} (h : isClear line = true) (more : List Char) :
    isClear (line ++ more) = true := by
  have hne : Text.dedent line ≠ [] := by
    intro hnil
    rw [isClear, hnil] at h
    revert h
    decide
  rw [isClear, List.all_eq_true] at h ⊢
  intro mark hmark
  rw [Text.dedent_append hne]
  exact Text.differ_append (h mark hmark) more

theorem isClear_indent {indent : List Char} (h : Text.allBlank indent = true) (line : List Char) :
    isClear (indent ++ line) = isClear line := by
  rw [isClear, Text.dedent_indent h, ← isClear]

theorem isLandmark_indent {indent : List Char} (h : Text.allBlank indent = true)
    (line : List Char) : isLandmark (indent ++ line) = isLandmark line := by
  simp only [isLandmark, Landmark.marks, Text.dedent_indent h]

/-! ## Code by lines -/

/-- Where two texts meet, the last line of the one and the first line of the other
    are one line. -/
theorem Text.lines_append {front more : List (List Char)} {last first : List Char}
    {as bs : List Char} (has : lines as = front ++ [last]) (hbs : lines bs = first :: more) :
    lines (as ++ bs) = front ++ (last ++ first) :: more := by
  induction as using line_induction generalizing front with
  | last line hline =>
    rw [lines_of_not_mem hline] at has
    obtain ⟨rfl, rfl⟩ : front = [] ∧ last = line := by
      cases front with
      | nil => exact ⟨rfl, (List.cons.inj has).1.symm⟩
      | cons f front => simp at has
    clear has
    induction last with
    | nil => exact hbs
    | cons c last ih =>
      rw [List.mem_cons, not_or] at hline
      rw [List.cons_append, lines_cons, ih hline.2, List.nil_append,
        consLine_of_ne (Ne.symm hline.1)]
      rfl
  | cons line rest hline ih =>
    rw [lines_append_line hline] at has
    cases front with
    | nil =>
      have hnil := (List.cons.inj has).2
      exact absurd hnil (lines_ne_nil rest)
    | cons f front =>
      obtain ⟨rfl, hrest⟩ := List.cons.inj has
      rw [List.append_assoc, List.cons_append, lines_append_line hline, ih hrest]
      rfl

/-- Every line begins unlike all landmarks. -/
def Clear (code : String) : Prop :=
  ∀ line ∈ Text.lines code.toList, isClear line = true

/-- Every line behind the first begins unlike all landmarks. -/
def Trails (code : String) : Prop :=
  ∀ line ∈ (Text.lines code.toList).tail, isClear line = true

instance (code : String) : Decidable (Clear code) :=
  inferInstanceAs (Decidable (∀ line ∈ Text.lines code.toList, isClear line = true))

instance (code : String) : Decidable (Trails code) :=
  inferInstanceAs (Decidable (∀ line ∈ (Text.lines code.toList).tail, isClear line = true))

/-- The text is empty, or its last line is complete. -/
def EndsLine (code : String) : Prop :=
  code = "" ∨ ∃ body, code = body ++ "\n"

/-- Statements without landmarks. -/
def Silent (code : String) : Prop :=
  EndsLine code ∧ ∀ line ∈ Text.lines code.toList, isLandmark line = false

/-- A value whose code has no landmarks, and makes up for none when more code
    follows on its last line. A lone name is one as long as it is not taken for
    the beginning of a longer word. -/
def Calm (code : String) : Prop :=
  Clear code ∨ ∃ t, code = identifier t

theorem Clear.trails {code : String} (h : Clear code) : Trails code :=
  fun line hline => h line (List.mem_of_mem_tail hline)

theorem trails_of_not_mem {code : String} (h : '\n' ∉ code.toList) : Trails code := by
  intro line hline
  rw [Text.lines_of_not_mem h] at hline
  cases hline

theorem exists_lines (code : String) :
    ∃ first more, Text.lines code.toList = first :: more :=
  List.exists_cons_of_ne_nil (Text.lines_ne_nil _)

theorem exists_last_line (code : String) :
    ∃ front last, Text.lines code.toList = front ++ [last] :=
  ⟨_, _, (List.dropLast_append_getLast (Text.lines_ne_nil _)).symm⟩

theorem Clear.append {front back : String} (hfront : Clear front) (hback : Trails back) :
    Clear (front ++ back) := by
  obtain ⟨lines, last, hlast⟩ := exists_last_line front
  obtain ⟨first, more, hfirst⟩ := exists_lines back
  unfold Clear at hfront ⊢
  unfold Trails at hback
  rw [hlast] at hfront
  rw [hfirst] at hback
  intro line hline
  rw [String.toList_append, Text.lines_append hlast hfirst] at hline
  rcases List.mem_append.mp hline with hline | hline
  · exact hfront line (List.mem_append_left _ hline)
  rcases List.mem_cons.mp hline with rfl | hline
  · exact isClear_append (hfront last (by simp)) first
  · exact hback line hline

theorem Trails.append {front back : String} (hfront : Trails front) (hback : Trails back) :
    Trails (front ++ back) := by
  obtain ⟨lines, last, hlast⟩ := exists_last_line front
  obtain ⟨first, more, hfirst⟩ := exists_lines back
  unfold Trails at hfront hback ⊢
  rw [hlast] at hfront
  rw [hfirst] at hback
  rw [String.toList_append, Text.lines_append hlast hfirst]
  cases lines with
  | nil => exact hback
  | cons top lines =>
    intro line hline
    rcases List.mem_append.mp hline with hline | hline
    · exact hfront line (List.mem_append_left _ hline)
    rcases List.mem_cons.mp hline with rfl | hline
    · exact isClear_append (hfront last (by simp)) first
    · exact hback line hline

/-- Clear code may go on with clear code on the next line. -/
theorem Clear.append_lineFeed {front back : String} (hfront : Clear front) (hback : Clear back) :
    Clear (front ++ "\n" ++ back) := by
  intro line hline
  rw [String.toList_append, String.toList_append, List.append_assoc] at hline
  rw [show "\n".toList ++ back.toList = '\n' :: back.toList from rfl,
    Text.lines_append_lineFeed] at hline
  rcases List.mem_append.mp hline with hline | hline
  · exact hfront line hline
  · exact hback line hline

theorem Silent.append {front back : String} (hfront : Silent front) (hback : Silent back) :
    Silent (front ++ back) := by
  obtain ⟨rfl | ⟨body, rfl⟩, hlines⟩ := hfront
  · rwa [String.empty_append]
  refine ⟨.inr ?_, ?_⟩
  · rcases hback.1 with rfl | ⟨more, rfl⟩
    · exact ⟨body, by rw [String.append_empty]⟩
    · exact ⟨body ++ "\n" ++ more, by simp only [String.append_assoc]⟩
  · intro line hline
    rw [String.toList_append, String.toList_append, List.append_assoc] at hline
    rw [show "\n".toList ++ back.toList = '\n' :: back.toList from rfl,
      Text.lines_append_lineFeed] at hline
    rcases List.mem_append.mp hline with hline | hline
    · refine hlines line ?_
      rw [String.toList_append]
      exact (Text.lines_append_end _).symm ▸ List.mem_append_left _ hline
    · exact hback.2 line hline

theorem silent_empty : Silent "" :=
  ⟨.inl rfl, by decide⟩

/-- Clear code is a statement when its last line is completed. -/
theorem Clear.silent {code : String} (h : Clear code) : Silent (code ++ "\n") := by
  refine ⟨.inr ⟨code, rfl⟩, fun line hline => ?_⟩
  rw [String.toList_append] at hline
  rw [show "\n".toList = ['\n'] from rfl, Text.lines_append_end] at hline
  rcases List.mem_append.mp hline with hline | hline
  · exact isLandmark_of_isClear (h line hline)
  · rw [List.mem_singleton.mp hline]
    decide

theorem Text.lines_indentChars {indent : List Char} (hline : '\n' ∉ indent) (cs : List Char) :
    lines (indentChars indent cs) =
      (lines cs).map (indentLine indent) := by
  have hindent : ∀ line : List Char, '\n' ∉ line →
      '\n' ∉ indentChars indent line ∧
        indentChars indent line = indentLine indent line := by
    intro line hmem
    rw [indentChars_of_not_mem _ hmem, indentLine]
    split
    · exact ⟨hmem, rfl⟩
    · exact ⟨by simp [hline, hmem], rfl⟩
  induction cs using line_induction with
  | last line hmem =>
    rw [lines_of_not_mem hmem, lines_of_not_mem (hindent line hmem).1,
      (hindent line hmem).2]
    rfl
  | cons line rest hmem ih =>
    rw [indentChars_append_line _ hmem, lines_append_line (hindent line hmem).1, ih,
      lines_append_line hmem, (hindent line hmem).2]
    rfl

section Indented

variable {indent : String} (hblank : Text.allBlank indent.toList = true)
  (hline : '\n' ∉ indent.toList)

include hblank hline

theorem Clear.indented {code : String} (h : Clear code) : Clear (indent ++ code) := by
  obtain ⟨first, more, hfirst⟩ := exists_lines code
  unfold Clear at h ⊢
  rw [hfirst] at h
  have hindent : Text.lines indent.toList = [] ++ [indent.toList] := Text.lines_of_not_mem hline
  rw [String.toList_append, Text.lines_append hindent hfirst, List.nil_append]
  intro line hmem
  rcases List.mem_cons.mp hmem with rfl | hmem
  · rw [isClear_indent hblank]
    exact h first List.mem_cons_self
  · exact h line (List.mem_cons_of_mem _ hmem)

theorem silent_indentLines {code : String} (h : Silent code) :
    Silent (Text.indentLines indent code) := by
  refine ⟨?_, ?_⟩
  · rcases h.1 with rfl | ⟨body, rfl⟩
    · exact .inl rfl
    · refine .inr ⟨Text.indentLines indent body, String.toList_inj.mp ?_⟩
      rw [Text.toList_indentLines, String.toList_append, String.toList_append,
        Text.toList_indentLines]
      exact Text.indentChars_append_lineFeed _ _ []
  · intro line hmem
    rw [Text.toList_indentLines, Text.lines_indentChars hline] at hmem
    obtain ⟨inner, hinner, rfl⟩ := List.mem_map.mp hmem
    rw [Text.indentLine]
    split
    · exact h.2 inner hinner
    · rw [isLandmark_indent hblank]
      exact h.2 inner hinner

end Indented

/-! ## Landmarks of code -/

/-- The lines of a text that stand out. -/
def landmarksIn (code : String) : List (List Char) :=
  (Text.solidLines code.toList).filter isLandmark

/-- Behind complete lines, code goes on with its solid lines. -/
theorem EndsLine.solidLines_append {front : String} (h : EndsLine front) (back : String) :
    Text.solidLines (front ++ back).toList =
      Text.solidLines front.toList ++ Text.solidLines back.toList := by
  rcases h with rfl | ⟨body, rfl⟩
  · rw [String.empty_append]
    rfl
  · rw [String.toList_append, String.toList_append, List.append_assoc,
      show "\n".toList ++ back.toList = '\n' :: back.toList from rfl,
      show "\n".toList = ['\n'] from rfl, Text.solidLines_append_lineFeed,
      Text.solidLines_append_end]

/-- The landmarks of statements are found part by part. -/
theorem landmarksIn_append {front : String} (h : EndsLine front) (back : String) :
    landmarksIn (front ++ back) = landmarksIn front ++ landmarksIn back := by
  unfold landmarksIn
  rw [h.solidLines_append, List.filter_append]

/-- Blanks at its end are not what makes a line stand out. -/
theorem isLandmark_of_trimEnd {line : List Char} (h : isLandmark (Text.trimEnd line) = true) :
    isLandmark line = true := by
  obtain ⟨blanks, hblanks⟩ : Text.trimEnd line <+: line := List.rdropWhile_prefix Text.isBlank line
  unfold isLandmark at h ⊢
  rw [List.any_eq_true] at h ⊢
  obtain ⟨mark, hmark, hmem⟩ := h
  refine ⟨mark, hmark, ?_⟩
  rw [Landmark.marks, Landmark.begins, List.isPrefixOf_iff_prefix] at hmem ⊢
  have hne : Text.dedent (Text.trimEnd line) ≠ [] := by
    intro hnil
    rw [hnil, List.prefix_nil] at hmem
    revert mark
    decide
  rw [← hblanks, Text.dedent_append hne]
  exact hmem.trans (List.prefix_append _ _)

theorem landmarksIn_of_forall {code : String}
    (h : ∀ line ∈ Text.lines code.toList, isLandmark line = false) : landmarksIn code = [] := by
  rw [landmarksIn, List.filter_eq_nil_iff]
  intro line hline hmark
  obtain ⟨hmem, -⟩ := List.mem_filter.mp hline
  obtain ⟨whole, hwhole, rfl⟩ := List.mem_map.mp hmem
  have hfalse := h whole hwhole
  rw [isLandmark_of_trimEnd hmark] at hfalse
  cases hfalse

theorem landmarksIn_of_silent {code : String} (h : Silent code) : landmarksIn code = [] :=
  landmarksIn_of_forall h.2

theorem landmarksIn_of_clear {code : String} (h : Clear code) : landmarksIn code = [] :=
  landmarksIn_of_forall fun line hline => isLandmark_of_isClear (h line hline)

theorem dedent_chars_append {mark : Landmark} (h : mark ∈ landmarks) (more : List Char) :
    Text.dedent (mark.chars ++ more) = mark.chars ++ more := by
  have hmarks : ∀ mark ∈ landmarks, Text.dedent mark.chars = mark.chars ∧ mark.chars ≠ [] := by
    decide
  obtain ⟨hdedent, hne⟩ := hmarks mark h
  rw [Text.dedent_append (by rwa [hdedent]), hdedent]

/-- A line that begins with a landmark is marked by it. -/
theorem Landmark.marks_of_begins {mark : Landmark} (h : mark ∈ landmarks) {line : List Char}
    (hline : mark.begins line = true) : mark.marks line = true := by
  obtain ⟨more, rfl⟩ := List.isPrefixOf_iff_prefix.mp hline
  rwa [marks, dedent_chars_append h]

theorem isLandmark_of_marks {mark : Landmark} (h : mark ∈ landmarks) {line : List Char}
    (hline : mark.marks line = true) : isLandmark line = true :=
  List.any_eq_true.mpr ⟨mark, h, hline⟩

/-- No line is marked by two landmarks. -/
theorem Landmark.marks_unique {mark other : Landmark} (h : mark ∈ landmarks)
    (hother : other ∈ landmarks) {line : List Char} (hmark : mark.marks line = true)
    (hmark' : other.marks line = true) : mark = other := by
  have hdiffer : ∀ mark ∈ landmarks, ∀ other ∈ landmarks,
      mark = other ∨ Text.differ other.chars mark.chars = true := by decide
  rcases hdiffer mark h other hother with heq | hdiffer
  · exact heq
  · obtain ⟨more, hmore⟩ := List.isPrefixOf_iff_prefix.mp hmark
    rw [marks, begins, ← hmore,
      Text.not_isPrefixOf_of_differ (Text.differ_append hdiffer more)] at hmark'
    cases hmark'

/-- A line that is marked by one landmark neither begins with another one nor is
    marked by it. -/
theorem Landmark.not_marks {mark other : Landmark} (h : mark ∈ landmarks)
    (hother : other ∈ landmarks) (hne : mark ≠ other) {line : List Char}
    (hmark : mark.marks line = true) : other.begins line = false ∧ other.marks line = false := by
  have hmarks : other.marks line ≠ true := fun hmark' =>
    hne (marks_unique h hother hmark hmark')
  exact ⟨Bool.eq_false_iff.mpr fun hbegins => hmarks (marks_of_begins hother hbegins),
    Bool.eq_false_iff.mpr hmarks⟩

/-- A complete line that does not end in blanks is found as it stands. -/
theorem landmarksIn_line {line : String} {front : List Char} {c : Char}
    (hline : '\n' ∉ line.toList) (hlast : line.toList = front ++ [c])
    (hc : Text.isBlank c = false) (hmark : isLandmark line.toList = true) :
    landmarksIn (line ++ "\n") = [line.toList] := by
  have htrim : Text.trimEnd line.toList = line.toList := by
    rw [hlast]
    exact List.rdropWhile_concat_neg _ _ _ (by simp [hc])
  have hne : Text.trimEnd line.toList ≠ [] := by
    rw [htrim, hlast]
    simp
  rw [landmarksIn, String.toList_append, show "\n".toList = ['\n'] from rfl,
    Text.solidLines_append_end, Text.solidLines_of_not_mem hline, if_neg hne, htrim]
  simp [hmark]

/-! ## Literals and names -/

theorem not_mem_quote (text : String) : '\n' ∉ (quote text).toList := by
  have hchar : ∀ c, '\n' ∉ quoteChar c := by
    intro c
    unfold quoteChar
    split
    · decide
    · decide
    · decide
    · decide
    · decide
    · next hne _ _ => simpa using fun h => hne h.symm
  rw [quote, String.toList_ofList]
  simp only [List.mem_append, List.mem_singleton, quoteChars, List.mem_flatMap, not_or,
    not_exists, not_and]
  exact ⟨⟨by decide, fun c _ => hchar c⟩, by decide⟩

/-- A line that does not begin with a small letter begins unlike all landmarks. -/
theorem clear_of_head {code : String} {c : Char} {cs : List Char} (h : code.toList = c :: cs)
    (hline : '\n' ∉ code.toList) (hblank : Text.isBlank c = false) (hlower : c.isLower = false) :
    Clear code := by
  have hmarks : ∀ mark ∈ landmarks, mark.chars.head?.any Char.isLower = true := by decide
  intro line hmem
  rw [Text.lines_of_not_mem hline, List.mem_singleton] at hmem
  rw [hmem, isClear, List.all_eq_true]
  intro mark hmark
  have hdedent : Text.dedent code.toList = c :: cs := by
    rw [h, Text.dedent, List.dropWhile_cons_of_neg (by simp [hblank])]
  have hhead := hmarks mark hmark
  rw [hdedent]
  cases hchars : mark.chars with
  | nil => simp [hchars] at hhead
  | cons d ds =>
    have hne : d ≠ c := by
      rintro rfl
      simp [hchars, hlower] at hhead
    simp [Text.differ, hne]

theorem clear_quote (text : String) : Clear (quote text) :=
  clear_of_head (String.toList_ofList) (not_mem_quote text) (by decide) (by decide)

theorem isBlank_of_isNameChar {c : Char} (h : isNameChar c = true) : Text.isBlank c = false := by
  have hrange := range_of_isNameChar h
  rw [Bool.eq_false_iff]
  intro hblank
  simp only [Text.isBlank, Text.blankRanges, List.any_cons, List.any_nil, Bool.or_eq_true,
    Bool.and_eq_true, decide_eq_true_eq, Bool.false_eq_true, or_false] at hblank
  omega

/-- No name has a line feed. -/
theorem not_mem_of_isNameChar {cs : List Char} (h : ∀ c ∈ cs, isNameChar c = true) :
    '\n' ∉ cs := by
  intro hmem
  have hname := h _ hmem
  revert hname
  decide

theorem isLower_of_isDigit {c : Char} (h : c.isDigit = true) : c.isLower = false := by
  have hdigit : c.isDigit = (decide (48 ≤ c.toNat) && decide (c.toNat ≤ 57)) := rfl
  have hlower : c.isLower = (decide (97 ≤ c.toNat) && decide (c.toNat ≤ 122)) := rfl
  simp only [hdigit, Bool.and_eq_true, decide_eq_true_eq] at h
  simp only [hlower, Bool.and_eq_false_iff, decide_eq_false_iff_not]
  omega

/-- A numeral begins unlike all landmarks. -/
theorem clear_number (x : Float) : Clear (number x) := by
  cases hfinite : x.toModel.unpack.isFinite with
  | true =>
    obtain ⟨sign, body, hchars, hbody⟩ := isNumeral_numberChars hfinite
    have hcode : (number x).toList = Decimal.signText sign ++ body := by
      rw [number, String.toList_ofList, hchars]
    have hmem : ∀ c ∈ body, Text.isBlank c = false ∧ c.isLower = false := by
      intro c hc
      rcases mem_of_isNumeral hbody hc with hdigit | rfl
      · refine ⟨isBlank_of_isNameChar ?_, isLower_of_isDigit hdigit⟩
        simp [isNameChar, Char.isAlphanum, hdigit]
      · decide
    have hbodyLine : '\n' ∉ body := fun h => absurd (hmem _ h).1 (by decide)
    cases sign with
    | negative =>
      refine clear_of_head hcode ?_ (by decide) (by decide)
      rw [hcode]
      simp [Decimal.signText, hbodyLine]
    | positive =>
      cases body with
      | nil => cases hbody
      | cons c cs =>
        have hc := hmem c List.mem_cons_self
        exact clear_of_head hcode (hcode ▸ hbodyLine) hc.1 hc.2
  | false =>
    unfold Clear
    rw [number, String.toList_ofList]
    cases hunpacked : x.toModel.unpack with
    | notANumber => decide
    | infinity sign => cases sign <;> decide
    | zero sign => rw [hunpacked] at hfinite; cases hfinite
    | finite sign significand exponent positive => rw [hunpacked] at hfinite; cases hfinite

/-! ## Names of variables -/

theorem exists_identifier (t : String) : ∃ c cs, (identifier t).toList = c :: cs ∧
    isNameChar c = true ∧ ∀ d ∈ c :: cs, isNameChar d = true := by
  obtain ⟨hchars, hstart, -⟩ := identifier_isName t
  cases hlist : (identifier t).toList with
  | nil => rw [hlist] at hstart; cases hstart
  | cons c cs =>
    rw [hlist] at hchars
    exact ⟨c, cs, rfl, hchars c List.mem_cons_self, hchars⟩

/-- A name of a variable makes up for no landmark if what is behind it differs
    from what is behind the word of the landmark, or if the word is a keyword. -/
theorem clear_identifier_append (t back : String) {d : Char} {ds : List Char}
    (hback : back.toList = d :: ds) (hd : isNameChar d = false) (hline : '\n' ∉ back.toList)
    (hmarks : ∀ mark ∈ landmarks, mark.word ∈ keywords ∨
      Text.differ mark.rest.toList (d :: ds) = true) : Clear (identifier t ++ back) := by
  have hwords : ∀ mark ∈ landmarks, mark.word.toList.all isNameChar = true ∧
      mark.rest.toList.head?.any (!isNameChar ·) = true := by decide
  obtain ⟨c, cs, hlist, hc, hchars⟩ := exists_identifier t
  intro line hmem
  have hwhole : '\n' ∉ (identifier t ++ back).toList := by
    rw [String.toList_append, List.mem_append, hlist]
    exact fun h => h.elim (not_mem_of_isNameChar hchars) hline
  rw [Text.lines_of_not_mem hwhole, List.mem_singleton] at hmem
  rw [hmem, isClear, List.all_eq_true]
  intro mark hmark
  have hdedent : Text.dedent (identifier t ++ back).toList = (identifier t).toList ++ d :: ds := by
    rw [String.toList_append, hback, hlist, List.cons_append, Text.dedent,
      List.dropWhile_cons_of_neg (by simp [isBlank_of_isNameChar hc])]
  obtain ⟨hword, hrest⟩ := hwords mark hmark
  rw [hdedent, Landmark.chars]
  cases hmarkRest : mark.rest.toList with
  | nil => simp [hmarkRest] at hrest
  | cons r rs =>
    have hr : isNameChar r = false := by simpa [hmarkRest] using hrest
    refine Text.differ_word (List.all_eq_true.mp hword) (hlist ▸ hchars) hr hd ?_
    rcases hmarks mark hmark with hkeyword | hdiffer
    · refine .inl fun heq => (identifier_isName t).2.2 ?_
      rw [String.toList_inj.mp heq]
      exact hkeyword
    · exact .inr (hmarkRest ▸ hdiffer)

/-- A name alone on its line is no landmark. -/
theorem silent_identifier (t : String) : Silent (identifier t ++ "\n") := by
  obtain ⟨c, cs, hlist, hc, hchars⟩ := exists_identifier t
  refine ⟨.inr ⟨_, rfl⟩, fun line hline => ?_⟩
  rw [String.toList_append, show "\n".toList = ['\n'] from rfl, Text.lines_append_end, hlist,
    Text.lines_of_not_mem (not_mem_of_isNameChar hchars)] at hline
  rcases List.mem_append.mp hline with hline | hline
  · rw [List.mem_singleton.mp hline, isLandmark, List.any_eq_false]
    intro mark hmark hmem
    have hmarks : ∀ mark ∈ landmarks, mark.chars.all isNameChar = false := by decide
    rw [Landmark.marks, Landmark.begins, Text.dedent,
      List.dropWhile_cons_of_neg (by simp [isBlank_of_isNameChar hc]),
      List.isPrefixOf_iff_prefix] at hmem
    have hall : mark.chars.all isNameChar = true :=
      List.all_eq_true.mpr fun d hd => hchars d (hmem.mem hd)
    rw [hmarks mark hmark] at hall
    cases hall
  · rw [List.mem_singleton.mp hline]
    decide

/-! ## Values -/

theorem Calm.trails {code : String} (h : Calm code) : Trails code := by
  rcases h with h | ⟨t, rfl⟩
  · exact h.trails
  · obtain ⟨c, cs, hlist, -, hchars⟩ := exists_identifier t
    exact trails_of_not_mem (hlist ▸ not_mem_of_isNameChar hchars)

/-- A value is a statement when its line is completed. -/
theorem Calm.silent {code : String} (h : Calm code) : Silent (code ++ "\n") := by
  rcases h with h | ⟨t, rfl⟩
  · exact h.silent
  · exact silent_identifier t

/-- A part is taken of a value, whatever it is. -/
theorem Calm.clear_get {code : String} (h : Calm code) : Clear (code ++ ".get(") := by
  rcases h with h | ⟨t, rfl⟩
  · exact h.append (by decide)
  · exact clear_identifier_append t ".get(" rfl (by decide) (by decide) (by decide)

/-- Code between two texts begins like the first of them. -/
theorem clear_enclosed {front code back : String} (hfront : Clear front) (hcode : Trails code)
    (hback : Trails back) : Clear (front ++ code ++ back) :=
  (hfront.append hcode).append hback

theorem trails_intercalate {separator : String} {parts : List String}
    (hseparator : Trails separator) (h : ∀ part ∈ parts, Trails part) :
    Trails (separator.intercalate parts) := by
  induction parts with
  | nil =>
    show Trails ""
    decide
  | cons part rest ih =>
    cases rest with
    | nil => exact h part List.mem_cons_self
    | cons other rest =>
      rw [String.intercalate_cons_cons]
      refine .append ((h part List.mem_cons_self).append hseparator) ?_
      exact ih fun p hp => h p (List.mem_cons_of_mem _ hp)

theorem clear_intercalate {parts : List String} (hne : parts ≠ [])
    (h : ∀ part ∈ parts, Clear part) : Clear (",\n".intercalate parts) := by
  induction parts with
  | nil => exact absurd rfl hne
  | cons part rest ih =>
    cases rest with
    | nil => exact h part List.mem_cons_self
    | cons other rest =>
      have hrest : Clear (",\n".intercalate (other :: rest)) :=
        ih (List.cons_ne_nil _ _) fun p hp => h p (List.mem_cons_of_mem _ hp)
      have hpart : Clear (part ++ ",") := (h part List.mem_cons_self).append (by decide)
      rw [String.intercalate_cons_cons, show ",\n" = "," ++ "\n" from rfl, ← String.append_assoc]
      exact hpart.append_lineFeed hrest

/-- Behind its first line, each line of a call with keyword arguments begins like a
    keyword or closes the call. -/
theorem exists_callWithKeywords {indent : String} (callee : String)
    {arguments : List (String × String)} (hblank : Text.allBlank indent.toList = true)
    (hline : '\n' ∉ indent.toList) (hne : arguments ≠ [])
    (harguments : ∀ argument ∈ arguments, Clear (argument.1 ++ "=") ∧ Trails argument.2) :
    ∃ rest, Clear rest ∧
      Emitters.callWithKeywords callee arguments indent = callee ++ "(" ++ "\n" ++ rest := by
  have hjoined : Clear (",\n".intercalate (arguments.map fun argument =>
      indent ++ argument.1 ++ "=" ++ argument.2)) := by
    refine clear_intercalate (by simpa using hne) fun part hpart => ?_
    obtain ⟨argument, hargument, rfl⟩ := List.mem_map.mp hpart
    obtain ⟨hname, hvalue⟩ := harguments argument hargument
    have hpart : Clear (indent ++ (argument.1 ++ "=") ++ argument.2) :=
      (hname.indented hblank hline).append hvalue
    rwa [← String.append_assoc] at hpart
  refine ⟨_, hjoined.append_lineFeed (show Clear ")" by decide), ?_⟩
  have hopen : "(\n" = "(" ++ "\n" := rfl
  have hclose : "\n)" = "\n" ++ ")" := rfl
  simp only [Emitters.callWithKeywords, hopen, hclose, String.append_assoc, -String.reduceAppend]

/-- A call with keyword arguments begins like its function. -/
theorem clear_callWithKeywords {callee indent : String} {arguments : List (String × String)}
    (hblank : Text.allBlank indent.toList = true) (hline : '\n' ∉ indent.toList)
    (hcallee : Clear (callee ++ "(")) (hne : arguments ≠ [])
    (harguments : ∀ argument ∈ arguments, Clear (argument.1 ++ "=") ∧ Trails argument.2) :
    Clear (Emitters.callWithKeywords callee arguments indent) := by
  obtain ⟨rest, hrest, heq⟩ := exists_callWithKeywords callee hblank hline hne harguments
  rw [heq]
  exact hcallee.append_lineFeed hrest

/-! ## Emitters -/

/-- What an emitter can rely on so that its code has no landmarks, and that it
    registers no task. The text of a choice is one of the options. -/
def quietContract (spec : BlockSpec) : Contract where
  asks _ _ default := Calm default
  does
    | .requireImport .. | .provideHelper .. => True
    | _ => False
  value _ _ _ code := Calm code
  body _ _ := True
  text slot t := ∀ first rest, spec.slot? slot = some ⟨slot, .dropdown (first :: rest)⟩ →
    t ∈ (first :: rest).map (·.2)
  number _ _ := True
  recorded _ := True

/-- Code without landmarks: a value, or statements. -/
def Quiet : Fragment → Prop
  | .expression code _ => Calm code
  | .statement code => Silent code

/-- The emitter registers no task and makes code without landmarks. -/
def Script.Emit.IsQuiet (spec : BlockSpec) (x : Emit Fragment) : Prop :=
  x.Meets (quietContract spec) Quiet

namespace Script.Emit

variable {spec : BlockSpec}

theorem quiet_value {slot default : String} {outer : Order} {f : String → Emit Fragment}
    (hdefault : Calm default) (rest : ∀ code, Calm code → (f code).IsQuiet spec) :
    (value slot outer default >>= f).IsQuiet spec :=
  .bind (.value hdefault) rest

theorem quiet_requireFrom {moduleName name : String} {f : Unit → Emit Fragment}
    (rest : (f ()).IsQuiet spec) : (requireFrom moduleName name >>= f).IsQuiet spec :=
  .bind (.perform trivial) fun _ _ => rest

end Script.Emit

namespace Emitters

open Script.Emit

variable (b : Block) (indent : String)

/-- A choice goes on like one of its options. -/
theorem trails_choice {options : List (String × String)} {t : String}
    (hoptions : ∀ option ∈ options, Trails option.2) (h : t ∈ options.map (·.2)) : Trails t := by
  obtain ⟨option, hoption, rfl⟩ := List.mem_map.mp h
  exact hoptions option hoption

section Keywords

variable (hblank : Text.allBlank indent.toList = true) (hline : '\n' ∉ indent.toList)

include hblank hline

theorem quiet_serialConfig {type title tooltip className : String}
    (hclass : Clear (className ++ "(")) :
    (serialConfig className b indent).IsQuiet (Catalog.serialConfig type title tooltip) := by
  refine quiet_requireFrom ?_
  refine quiet_value (.inl (by decide)) fun port hport => ?_
  refine .bind .fieldText fun baudrate hbaudrate => ?_
  refine quiet_value (.inl (by decide)) fun bytesize hbytesize => ?_
  refine .bind .fieldText fun parity _ => ?_
  refine quiet_value (.inl (by decide)) fun stopbits hstopbits => ?_
  refine quiet_value (.inl (by decide)) fun timeout htimeout => ?_
  refine quiet_value (.inl (by decide)) fun slaveId hslaveId => ?_
  refine quiet_value (.inl (by decide)) fun startAddress hstartAddress => ?_
  refine quiet_value (.inl (by decide)) fun count hcount => ?_
  refine .bind .fieldText fun functionCode hfunctionCode => .pure (.inl ?_)
  have hbaudrate' : Trails baudrate := trails_choice (by decide) (hbaudrate _ _ rfl)
  have hfunctionCode' : Trails functionCode := trails_choice (by decide) (hfunctionCode _ _ rfl)
  refine clear_callWithKeywords hblank hline hclass (List.cons_ne_nil _ _) ?_
  simp only [List.forall_mem_cons]
  exact ⟨⟨by decide, hport.trails⟩,
    ⟨by decide, hbaudrate'⟩,
    ⟨by decide, hbytesize.trails⟩,
    ⟨by decide, (clear_quote parity).trails⟩,
    ⟨by decide, hstopbits.trails⟩,
    ⟨by decide, htimeout.trails⟩,
    ⟨by decide, hslaveId.trails⟩,
    ⟨by decide, hstartAddress.trails⟩,
    ⟨by decide, hcount.trails⟩,
    ⟨by decide, hfunctionCode'⟩, fun _ h => nomatch h⟩

theorem quiet_tcpConfig : (tcpConfig b indent).IsQuiet Catalog.tcpConfig := by
  refine quiet_requireFrom ?_
  refine quiet_value (.inl (by decide)) fun host hhost => ?_
  refine quiet_value (.inl (by decide)) fun port hport => ?_
  refine quiet_value (.inl (by decide)) fun timeout htimeout => ?_
  refine quiet_value (.inl (by decide)) fun slaveId hslaveId => ?_
  refine quiet_value (.inl (by decide)) fun startAddress hstartAddress => ?_
  refine quiet_value (.inl (by decide)) fun count hcount => ?_
  refine .bind .fieldText fun functionCode hfunctionCode => .pure (.inl ?_)
  have hfunctionCode' : Trails functionCode := trails_choice (by decide) (hfunctionCode _ _ rfl)
  refine clear_callWithKeywords hblank hline (by decide) (List.cons_ne_nil _ _) ?_
  simp only [List.forall_mem_cons]
  exact ⟨⟨by decide, hhost.trails⟩,
    ⟨by decide, hport.trails⟩,
    ⟨by decide, htimeout.trails⟩,
    ⟨by decide, hslaveId.trails⟩,
    ⟨by decide, hstartAddress.trails⟩,
    ⟨by decide, hcount.trails⟩,
    ⟨by decide, hfunctionCode'⟩, fun _ h => nomatch h⟩

end Keywords

theorem quiet_pullData : (pullData b indent).IsQuiet Catalog.pullData := by
  refine quiet_requireFrom ?_
  refine .bind .recorded fun recorded _ => ?_
  have hrest : (Emit.value "CONFIG" .none defaultNone >>= fun config => pure
      (.expression ("await pull_data_async(" ++ config ++ ")") .await)).IsQuiet
      Catalog.pullData := by
    refine quiet_value (.inl (by decide)) fun config hconfig => .pure (.inl ?_)
    exact clear_enclosed (by decide) hconfig.trails (by decide)
  dsimp only
  split
  · exact .bind .report fun _ _ => hrest
  · exact hrest

theorem quiet_setInterval : (setInterval b indent).IsQuiet Catalog.setInterval := by
  refine quiet_requireFrom ?_
  refine quiet_value (.inl (by decide)) fun interval hinterval => .pure ?_
  have hcall : Clear ("set_interval_frequency(" ++ interval ++ ")") :=
    clear_enclosed (by decide) hinterval.trails (by decide)
  show Silent _
  rw [show ")\n" = ")" ++ "\n" from rfl, ← String.append_assoc]
  exact hcall.silent

theorem quiet_getField : (getField b indent).IsQuiet Catalog.getField := by
  refine .bind .fieldText fun field _ => ?_
  refine quiet_value (.inl (by decide)) fun data hdata => .pure (.inl ?_)
  exact clear_enclosed hdata.clear_get (clear_quote field).trails (by decide)

theorem quiet_getRegister : (getRegister b indent).IsQuiet Catalog.getRegister := by
  refine quiet_value (.inl (by decide)) fun index hindex => ?_
  refine quiet_value (.inl (by decide)) fun data hdata => .pure (.inl ?_)
  have hfront : Clear (data ++ ".get(\"registers\", [])[") := by
    rw [show ".get(\"registers\", [])[" = ".get(" ++ "\"registers\", [])[" from rfl,
      ← String.append_assoc]
    exact hdata.clear_get.append (by decide)
  exact clear_enclosed hfront hindex.trails (by decide)

theorem quiet_getLimiter : (getLimiter b indent).IsQuiet Catalog.getLimiter := by
  refine quiet_requireFrom ?_
  refine .bind .fieldText fun name _ => .pure (.inl ?_)
  exact clear_enclosed (by decide) (clear_quote name).trails (by decide)

theorem quiet_dcpUpdate : (dcpUpdate b indent).IsQuiet Catalog.dcpUpdate := by
  refine quiet_requireFrom ?_
  refine .bind .fieldText fun name _ => ?_
  refine quiet_value (.inl (by decide)) fun value hvalue => .pure ?_
  have hfront : Clear ("dcp_update(" ++ quote name ++ ", ") :=
    clear_enclosed (by decide) (clear_quote name).trails (by decide)
  have hcall : Clear ("dcp_update(" ++ quote name ++ ", " ++ value ++ ")") :=
    clear_enclosed hfront hvalue.trails (by decide)
  show Silent _
  rw [show ")\n" = ")" ++ "\n" from rfl, ← String.append_assoc]
  exact hcall.silent

theorem quiet_alarmEvaluator : (alarmEvaluator b indent).IsQuiet Catalog.alarmEvaluator := by
  refine .bind (.perform trivial) fun _ _ => ?_
  refine quiet_value (.inl (by decide)) fun reading hreading => ?_
  refine quiet_value (.inl (by decide)) fun lv1 hlv1 => ?_
  refine quiet_value (.inl (by decide)) fun lv2 hlv2 => ?_
  refine quiet_value (.inl (by decide)) fun lv3 hlv3 => .pure (.inl ?_)
  refine clear_enclosed (by decide) (trails_intercalate (by decide) ?_) (by decide)
  simp only [List.forall_mem_cons]
  exact ⟨hreading.trails, hlv1.trails, hlv2.trails, hlv3.trails, fun _ h => nomatch h⟩

theorem quiet_log : (log b indent).IsQuiet Catalog.log := by
  refine .bind (.perform trivial) fun _ _ => ?_
  refine .bind (.perform trivial) fun _ _ => ?_
  refine quiet_value (.inl (by decide)) fun message hmessage => .pure ?_
  have hcall : Clear ("logging.info(" ++ message ++ ")") :=
    clear_enclosed (by decide) hmessage.trails (by decide)
  show Silent _
  rw [show ")\n" = ")" ++ "\n" from rfl, ← String.append_assoc]
  exact hcall.silent

theorem quiet_text : (text b indent).IsQuiet Catalog.text :=
  .bind .fieldText fun t _ => .pure (.inl (clear_quote t))

theorem quiet_mathNumber : (mathNumber b indent).IsQuiet Catalog.mathNumber :=
  .bind .fieldNumber fun x _ => .pure (.inl (clear_number x))

theorem quiet_variablesSet : (variablesSet b indent).IsQuiet Catalog.variablesSet := by
  refine .bind .fieldText fun name _ => ?_
  refine quiet_value (.inl (by decide)) fun value hvalue => .pure ?_
  have hfront : Clear (identifier name ++ " = ") :=
    clear_identifier_append name " = " rfl (by decide) (by decide) (by decide)
  exact (hfront.append hvalue.trails).silent

theorem quiet_variablesGet : (variablesGet b indent).IsQuiet Catalog.variablesGet :=
  .bind .fieldText fun name _ => .pure (.inr ⟨name, rfl⟩)

end Emitters

/-- The emitter of every built-in type but the task registers no task and makes
    code without landmarks. -/
theorem quiet_builtins {e : Builtin} (h : e ∈ builtins)
    (htask : e.spec.type ≠ "modbus_task_definition") (b : Block) {indent : String}
    (hblank : Text.allBlank indent.toList = true) (hline : '\n' ∉ indent.toList) :
    (e.emitter b indent).IsQuiet e.spec := by
  simp only [builtins, List.mem_cons, List.not_mem_nil, or_false] at h
  rcases h with rfl | rfl | rfl | rfl | rfl | rfl | rfl | rfl | rfl | rfl | rfl | rfl | rfl |
    rfl | rfl | rfl
  · exact Emitters.quiet_serialConfig b indent hblank hline (by decide)
  · exact Emitters.quiet_serialConfig b indent hblank hline (by decide)
  · exact Emitters.quiet_tcpConfig b indent hblank hline
  · exact Emitters.quiet_pullData b indent
  · exact Emitters.quiet_setInterval b indent
  · exact Emitters.quiet_getField b indent
  · exact absurd rfl htask
  · exact Emitters.quiet_getRegister b indent
  · exact Emitters.quiet_getLimiter b indent
  · exact Emitters.quiet_dcpUpdate b indent
  · exact Emitters.quiet_alarmEvaluator b indent
  · exact Emitters.quiet_log b indent
  · exact Emitters.quiet_text b indent
  · exact Emitters.quiet_mathNumber b indent
  · exact Emitters.quiet_variablesSet b indent
  · exact Emitters.quiet_variablesGet b indent

end PollScript
