import Mathlib.Data.List.Forall2
import PollScript.Proofs.Stencil

/-!
# Variations of a text

Two passes may vary in the width of their indentation and in texts that stand in string
literals. Such passes write texts that are alike: they are filled from one stencil. What
scripts are made of is alike part by part, and all edits by lines keep texts alike.

Results:

* `Variation.Versions.exists_trimLines`, `Variation.Versions.indentChars`: alike texts stay
  alike when their lines are edited.
* `Variation.exists_versions_tidy`: so they do in the normal form of a script.
* `Variation.sections_finalize`: scripts of alike code and alike contexts are alike.
-/

namespace PollScript

open Script

/-- How a second pass may vary from a first one. The numbers are their widths of
    indentation. -/
structure Variation where
  first : Nat
  second : Nat
  first_pos : 0 < first
  second_pos : 0 < second
  /-- The type of the first pass that a type of the second pass stands for. -/
  rename : String → String
  /-- Which text of the second pass may stand for a text of the first pass in a literal. -/
  Texts : String → String → Prop
  same : ∀ t, Texts t t

namespace Variation

variable (v : Variation)

/-- How stencils are filled in the first pass. -/
def left : Filling := ⟨v.first, v.first_pos, fun s _ => s⟩

/-- How stencils are filled in the second pass. -/
def right : Filling := ⟨v.second, v.second_pos, fun _ t => t⟩

/-- A unit of indentation in the first pass. -/
def leftIndent : String := String.ofList v.left.indent

/-- A unit of indentation in the second pass. -/
def rightIndent : String := String.ofList v.right.indent

/-! ## Texts -/

/-- The texts are filled from one stencil. The flags tell whether it begins and ends in the
    margin of a line. -/
def Versions (m n : Bool) (cs ds : List Char) : Prop :=
  ∃ s : Stencil v.Texts, s.lay m = some n ∧ v.left.chars s = cs ∧ v.right.chars s = ds

variable {v} {m k n : Bool} {cs ds cs' ds' : List Char} {p : Char → Bool}

theorem Versions.append (h : v.Versions m k cs ds) (h' : v.Versions k n cs' ds') :
    v.Versions m n (cs ++ cs') (ds ++ ds') := by
  obtain ⟨s, hs, rfl, rfl⟩ := h
  obtain ⟨t, ht, rfl, rfl⟩ := h'
  refine ⟨s ++ t, ?_, Filling.chars_append _ s t, Filling.chars_append _ s t⟩
  rw [Stencil.lay_append, hs]
  exact ht

/-- A text that can be read is a version of itself. -/
theorem Versions.text (h : Text.lay m cs = some n) : v.Versions m n cs cs :=
  ⟨.ofChars cs, by rw [Stencil.lay_ofChars, h], Filling.chars_ofChars _ cs,
    Filling.chars_ofChars _ cs⟩

theorem Versions.unit : v.Versions true true v.left.indent v.right.indent :=
  ⟨[.unit], rfl, List.append_nil _, List.append_nil _⟩

theorem Versions.literal {s t : String} (h : v.Texts s t) (m : Bool) :
    v.Versions m false (quote s).toList (quote t).toList :=
  ⟨[.literal s t h], rfl, List.append_nil _, List.append_nil _⟩

theorem Versions.exists_intercalate {separator : List Char} {parts others : List (List Char)}
    (hseparator : ∀ n, Text.lay n separator = some m)
    (h : List.Forall₂ (fun cs ds => ∃ n, v.Versions m n cs ds) parts others) :
    ∃ n, v.Versions m n (separator.intercalate parts) (separator.intercalate others) := by
  induction h with
  | nil => exact ⟨m, .text rfl⟩
  | @cons part other parts others hpart hparts ih =>
    obtain ⟨k, hpart⟩ := hpart
    cases hparts with
    | nil => exact ⟨k, by simpa using hpart⟩
    | cons hnext hparts =>
      obtain ⟨n, hrest⟩ := ih
      rw [List.intercalate_cons_cons, List.intercalate_cons_cons]
      exact ⟨n, (hpart.append (.text (hseparator k))).append hrest⟩

/-- Whether a text holds characters of a class only is the same for its versions, if
    quotes are not in the class. -/
theorem Versions.all_eq (h : v.Versions m n cs ds) (hp : p '"' = false) : cs.all p = ds.all p := by
  obtain ⟨s, -, rfl, rfl⟩ := h
  rw [Filling.all_chars _ hp, Filling.all_chars _ hp]

theorem Versions.allBlank_eq (h : v.Versions m n cs ds) : Text.allBlank cs = Text.allBlank ds :=
  h.all_eq (by decide)

theorem Versions.eq_nil_iff (h : v.Versions m n cs ds) : cs = [] ↔ ds = [] := by
  have hall := h.all_eq (p := fun _ => false) rfl
  cases cs <;> cases ds <;> simp_all

/-- What is in front of a stencil that can be read can be read. -/
theorem exists_lay_of_append {s t : Stencil v.Texts} (h : (s ++ t).lay m = some n) :
    ∃ k, s.lay m = some k := by
  rw [Stencil.lay_append, Option.bind_eq_some_iff] at h
  obtain ⟨k, hk, -⟩ := h
  exact ⟨k, hk⟩

theorem exists_lay_rdropWhile {q : Cell v.Texts → Bool} {s : Stencil v.Texts}
    (h : s.lay m = some n) : ∃ k, Stencil.lay m (s.rdropWhile q) = some k := by
  obtain ⟨t, ht⟩ := List.rdropWhile_prefix q (l := s)
  rw [← ht] at h
  exact exists_lay_of_append h

/-- Versions of a text stay such without the line feeds at their ends. -/
theorem Versions.exists_trimLineFeeds (h : v.Versions true n cs ds) :
    ∃ n, v.Versions true n (Text.trimLineFeeds cs) (Text.trimLineFeeds ds) := by
  obtain ⟨s, hs, rfl, rfl⟩ := h
  have hfront : Stencil.lay true (s.dropWhile (Cell.isOf (· == '\n'))) = some n := by
    induction s with
    | nil => exact hs
    | cons cell s ih =>
      cases hcell : cell.isOf (· == '\n') with
      | false => rwa [List.dropWhile_cons_of_neg (by simp [hcell])]
      | true =>
        rw [List.dropWhile_cons_of_pos hcell]
        refine ih ?_
        cases cell with
        | char c =>
          obtain rfl : c = '\n' := by simpa [Cell.isOf] using hcell
          exact hs
        | unit => cases hcell
        | literal first second hsame => cases hcell
  obtain ⟨k, hk⟩ := exists_lay_rdropWhile (q := Cell.isOf (· == '\n')) hfront
  refine ⟨k, _, hk, ?_, ?_⟩
  · rw [Text.trimLineFeeds, Text.stripWhile, Filling.dropWhile_chars _ (by decide),
      Filling.dropEndWhile_chars _ (by decide)]
  · rw [Text.trimLineFeeds, Text.stripWhile, Filling.dropWhile_chars _ (by decide),
      Filling.dropEndWhile_chars _ (by decide)]

/-- Versions of a text stay such without the blanks at the ends of their lines. -/
theorem Versions.exists_trimLines (h : v.Versions true n cs ds) :
    ∃ n, v.Versions true n (Text.trimLines cs) (Text.trimLines ds) := by
  obtain ⟨s, hs, rfl, rfl⟩ := h
  have hedit : ∀ line : Stencil v.Texts, ∀ margin, .char '\n' ∉ line →
      Stencil.lay true line = some margin →
      ∃ k, Stencil.lay true (line.rdropWhile (Cell.isOf Text.isBlank)) = some k ∧ True := by
    intro line margin _ hline
    obtain ⟨k, hk⟩ := exists_lay_rdropWhile hline
    exact ⟨k, hk, trivial⟩
  obtain ⟨k, hk, -⟩ := Stencil.exists_lay_mapLines hedit hs
  have htrim : ∀ F : Filling, ∀ line : Stencil v.Texts,
      F.chars (line.rdropWhile (Cell.isOf Text.isBlank)) = Text.trimEnd (F.chars line) :=
    fun F line => (F.dropEndWhile_chars (by decide) line).symm
  exact ⟨k, _, hk, Filling.chars_mapLines _ (htrim _) s, Filling.chars_mapLines _ (htrim _) s⟩

/-- A line one level deeper. -/
def indentLine (line : Stencil v.Texts) : Stencil v.Texts :=
  if line.all (Cell.isOf Text.isBlank) then line else .unit :: line

/-- Versions of code stay such one level deeper. -/
theorem Versions.indentChars (h : v.Versions true n cs ds) :
    v.Versions true n (Text.indentChars v.left.indent cs) (Text.indentChars v.right.indent ds) := by
  obtain ⟨s, hs, rfl, rfl⟩ := h
  have hedit : ∀ line : Stencil v.Texts, ∀ margin, .char '\n' ∉ line →
      Stencil.lay true line = some margin →
      ∃ k, Stencil.lay true (indentLine line) = some k ∧ margin = k := by
    intro line margin _ hline
    refine ⟨margin, ?_, rfl⟩
    unfold indentLine
    split
    · exact hline
    · exact hline
  obtain ⟨k, hk, rfl⟩ := Stencil.exists_lay_mapLines hedit hs
  have hindent : ∀ F : Filling, ∀ line : Stencil v.Texts,
      F.chars (indentLine line) = Text.indentLine F.indent (F.chars line) := by
    intro F line
    rw [Text.indentLine, Text.allBlank, F.all_chars (by decide)]
    unfold indentLine
    split
    · rfl
    · exact F.chars_cons _ _
  refine ⟨_, hk, ?_, ?_⟩
  · rw [Text.indentChars_eq]
    exact Filling.chars_mapLines _ (hindent _) s
  · rw [Text.indentChars_eq]
    exact Filling.chars_mapLines _ (hindent _) s

/-- Versions of a script stay such in its normal form. -/
theorem exists_versions_tidy {s t : String} (h : v.Versions true n s.toList t.toList) :
    ∃ n, v.Versions true n (Text.tidy s).toList (Text.tidy t).toList := by
  obtain ⟨k, hlines⟩ := h.exists_trimLines
  obtain ⟨k, hbody⟩ := hlines.exists_trimLineFeeds
  rw [Text.toList_tidy, Text.toList_tidy]
  simp only [hbody.eq_nil_iff]
  split
  · exact ⟨true, .text rfl⟩
  · exact ⟨true, hbody.append (.text (by cases k <;> rfl))⟩

/-! ## Pieces of code -/

variable (v)

/-- The texts are versions of one text. -/
def Alike (m n : Bool) (s t : String) : Prop :=
  v.Versions m n s.toList t.toList

/-- The codes of two values, which may stand anywhere in a line. -/
def Expressions (s t : String) : Prop :=
  ∀ m, v.Alike m false s t

/-- The codes of two chains of statements, which consist of whole lines. -/
def Statements (s t : String) : Prop :=
  v.Alike true true s t

/-- Two parts of a script, which begin with a line. -/
def Sections (s t : String) : Prop :=
  ∃ n, v.Alike true n s t

variable {v} {s t s' t' : String}

theorem Alike.append (h : v.Alike m k s t) (h' : v.Alike k n s' t') :
    v.Alike m n (s ++ s') (t ++ t') := by
  rw [Alike, String.toList_append, String.toList_append]
  exact Versions.append h h'

theorem Alike.text {s : String} (h : Text.lay m s.toList = some n) : v.Alike m n s s :=
  Versions.text h

theorem Alike.unit : v.Alike true true v.leftIndent v.rightIndent := by
  rw [Alike, leftIndent, rightIndent, String.toList_ofList, String.toList_ofList]
  exact .unit

theorem Expressions.literal (h : v.Texts s t) : v.Expressions (quote s) (quote t) :=
  Versions.literal h

theorem Expressions.text {code : String} (h : ∀ m, Text.lay m code.toList = some false) :
    v.Expressions code code :=
  fun m => .text (h m)

theorem layChar_of_solid {c : Char} (h : c ∉ ['\n', ' ', '"']) (m : Bool) :
    Text.layChar m c = some false := by
  simp only [List.mem_cons, List.not_mem_nil, or_false, not_or] at h
  simp [Text.layChar, h]

/-- Code without blanks, line feeds and quotes may stand behind other code. -/
theorem Alike.solid {code : String} (h : ∀ c ∈ code.toList, c ∉ ['\n', ' ', '"']) :
    v.Alike false false code code := by
  refine .text ?_
  generalize code.toList = cs at h
  induction cs with
  | nil => rfl
  | cons c cs ih =>
    rw [Text.lay, List.foldlM_cons, layChar_of_solid (h c List.mem_cons_self)]
    exact ih fun d hd => h d (List.mem_cons_of_mem _ hd)

/-- If there is any, it may stand anywhere in a line. -/
theorem Expressions.solid {code : String} (hne : code ≠ "")
    (h : ∀ c ∈ code.toList, c ∉ ['\n', ' ', '"']) : v.Expressions code code := by
  intro m
  cases hcode : code.toList with
  | nil => exact absurd (String.toList_eq_nil_iff.mp hcode) hne
  | cons c cs =>
    have hhead : v.Alike m false (String.ofList [c]) (String.ofList [c]) := by
      refine .text ?_
      rw [String.toList_ofList, Text.lay, List.foldlM_cons,
        layChar_of_solid (h c (hcode ▸ List.mem_cons_self))]
      rfl
    have htail : v.Alike false false (String.ofList cs) (String.ofList cs) := by
      refine .solid fun d hd => h d ?_
      rw [String.toList_ofList] at hd
      exact hcode ▸ List.mem_cons_of_mem _ hd
    have hsplit : code = String.ofList [c] ++ String.ofList cs := by
      rw [← String.ofList_append, List.singleton_append, ← hcode, String.ofList_toList]
    rw [hsplit]
    exact hhead.append htail

theorem not_mem_of_isNameChar {c : Char} (h : isNameChar c = true) : c ∉ ['\n', ' ', '"'] := by
  intro hmem
  have hnone : ∀ c ∈ ['\n', ' ', '"'], (!isNameChar c) = true :=
    List.all_eq_true.mp (by decide)
  simpa [h] using hnone c hmem

theorem Alike.name {code : String} (h : ∀ c ∈ code.toList, isNameChar c = true) :
    v.Alike false false code code :=
  .solid fun c hc => not_mem_of_isNameChar (h c hc)

theorem Expressions.identifier (t : String) : v.Expressions (identifier t) (identifier t) := by
  obtain ⟨c, cs, hchars, -, hname⟩ := exists_identifier t
  refine .solid (fun hempty => ?_) fun d hd => not_mem_of_isNameChar (hname d (hchars ▸ hd))
  rw [hempty] at hchars
  cases hchars

theorem Expressions.number (x : Float) : v.Expressions (number x) (number x) := by
  obtain ⟨hne, hchars⟩ := number_chars x
  refine .solid hne fun c hc => ?_
  rcases hchars c hc with hname | rfl | rfl
  · exact not_mem_of_isNameChar hname
  · decide
  · decide

theorem Expressions.isEmpty_eq (h : v.Expressions s t) : s.isEmpty = t.isEmpty := by
  have hnil := Versions.eq_nil_iff (h false)
  rw [String.toList_eq_nil_iff, String.toList_eq_nil_iff] at hnil
  rw [Bool.eq_iff_iff, String.isEmpty_iff, String.isEmpty_iff, hnil]

theorem Statements.none : v.Statements "" "" :=
  Versions.text rfl

theorem Statements.append (h : v.Statements s t) (h' : v.Statements s' t') :
    v.Statements (s ++ s') (t ++ t') :=
  Alike.append h h'

theorem Statements.indentLines (h : v.Statements s t) :
    v.Statements (Text.indentLines v.leftIndent s) (Text.indentLines v.rightIndent t) := by
  rw [Statements, Alike, Text.toList_indentLines, Text.toList_indentLines, leftIndent, rightIndent,
    String.toList_ofList, String.toList_ofList]
  exact Versions.indentChars h

theorem Alike.exists_intercalate {separator : String} {parts others : List String}
    (hseparator : ∀ n, Text.lay n separator.toList = some m)
    (h : List.Forall₂ (fun s t => ∃ n, v.Alike m n s t) parts others) :
    ∃ n, v.Alike m n (separator.intercalate parts) (separator.intercalate others) := by
  simp only [Alike, String.toList_intercalate]
  refine Versions.exists_intercalate hseparator ?_
  rw [List.forall₂_map_left_iff, List.forall₂_map_right_iff]
  exact h

/-! ## Contexts -/

variable (v)

/-- What two contexts hold under one key. -/
def Entries (entry entry' : String × String) : Prop :=
  entry.1 = entry'.1 ∧ v.Sections entry.2 entry'.2

/-- Two contexts that hold the same in versions. -/
structure Contexts (c c' : Context) : Prop where
  leftUnit : c.indent = v.leftIndent
  rightUnit : c'.indent = v.rightIndent
  imports : List.Forall₂ v.Entries c.imports c'.imports
  helpers : List.Forall₂ v.Entries c.helpers c'.helpers
  tasks : c.tasks = c'.tasks
  names : ∀ task ∈ c.tasks, ∀ ch ∈ task.toList, isNameChar ch = true
  depth : c.taskDepth = c'.taskDepth

/-- Two operations that do the same to such contexts. -/
def Operations : Context.Operation → Context.Operation → Prop
  | .requireImport key line, .requireImport key' line' => v.Entries (key, line) (key', line')
  | .provideHelper key code, .provideHelper key' code' => v.Entries (key, code) (key', code')
  | .registerTask name, .registerTask name' =>
    name = name' ∧ ∀ ch ∈ name.toList, isNameChar ch = true
  | .enterTask, .enterTask => True
  | .leaveTask, .leaveTask => True
  | _, _ => False

variable {v}

theorem has_congr {entries entries' : List (String × String)}
    (h : List.Forall₂ v.Entries entries entries') (key : String) :
    Dictionary.has entries key = Dictionary.has entries' key := by
  induction h with
  | nil => rfl
  | @cons entry entry' rest rest' hentry hrest ih =>
    obtain ⟨k, text⟩ := entry
    obtain ⟨k', text'⟩ := entry'
    obtain ⟨rfl, -⟩ : k = k' ∧ _ := hentry
    unfold Dictionary.has at ih ⊢
    rw [Dictionary.get?_cons, Dictionary.get?_cons]
    split
    · rfl
    · exact ih

theorem forall₂_request {entries entries' : List (String × String)} {key key' text text' : String}
    (h : List.Forall₂ v.Entries entries entries')
    (htext : v.Entries (key, text) (key', text')) :
    List.Forall₂ v.Entries (Context.request key text entries).2
      (Context.request key' text' entries').2 := by
  obtain rfl : key = key' := htext.1
  unfold Context.request
  rw [has_congr h]
  split
  · exact h
  · exact List.rel_append h (.cons htext .nil)

/-- What is done to both contexts keeps them alike. -/
theorem Contexts.apply {operation operation' : Context.Operation} {c c' : Context}
    (hdoes : v.Operations operation operation') (h : v.Contexts c c') :
    v.Contexts (c.apply operation).2 (c'.apply operation').2 := by
  cases operation with
  | requireImport key line =>
    cases operation' with
    | requireImport key' line' => exact { h with imports := forall₂_request h.imports hdoes }
    | _ => exact hdoes.elim
  | provideHelper key code =>
    cases operation' with
    | provideHelper key' code' => exact { h with helpers := forall₂_request h.helpers hdoes }
    | _ => exact hdoes.elim
  | registerTask name =>
    cases operation' with
    | registerTask name' =>
      obtain ⟨rfl, hname⟩ := hdoes
      refine { h with tasks := congrArg (· ++ [name]) h.tasks, names := fun task htask => ?_ }
      rcases List.mem_append.mp htask with htask | htask
      · exact h.names task htask
      · rw [List.mem_singleton.mp htask]
        exact hname
    | _ => exact hdoes.elim
  | enterTask =>
    cases operation' with
    | enterTask => exact { h with depth := congrArg (· + 1) h.depth }
    | _ => exact hdoes.elim
  | leaveTask =>
    cases operation' with
    | leaveTask => exact { h with depth := congrArg (· - 1) h.depth }
    | _ => exact hdoes.elim
  | reset => cases operation' <;> exact hdoes.elim
  | finalize code => cases operation' <;> exact hdoes.elim

/-! ## Finished scripts -/

/-- The launch of the tasks differs in its indentation only. -/
theorem alike_runner {tasks : List String}
    (h : ∀ task ∈ tasks, ∀ ch ∈ task.toList, isNameChar ch = true) :
    v.Alike true true (Context.runner v.leftIndent tasks) (Context.runner v.rightIndent tasks) := by
  obtain ⟨n, hcalls⟩ : ∃ n, v.Alike false n (", ".intercalate (tasks.map (· ++ "()")))
      (", ".intercalate (tasks.map (· ++ "()"))) := by
    refine Alike.exists_intercalate (by decide) ?_
    rw [List.forall₂_same]
    intro call hcall
    obtain ⟨task, htask, rfl⟩ := List.mem_map.mp hcall
    exact ⟨false, (Alike.name (h task htask)).append (.text (by decide))⟩
  have hguard : v.Alike true true "if __name__ == \"__main__\":\n"
      "if __name__ == \"__main__\":\n" := by
    have hparts : "if __name__ == \"__main__\":\n" =
        "if __name__ == " ++ quote "__main__" ++ ":\n" := by decide
    rw [hparts]
    exact ((Alike.text (by decide)).append (Expressions.literal (v.same _) false)).append
      (.text (by decide))
  have hopen : v.Alike true false ("async def main():\n" ++ v.leftIndent ++ "await asyncio.gather(")
      ("async def main():\n" ++ v.rightIndent ++ "await asyncio.gather(") :=
    ((Alike.text (by decide)).append .unit).append (.text (by decide))
  have hmain := (hopen.append hcalls).append
    (show v.Alike n true ")\n" ")\n" from .text (by cases n <;> decide))
  have hhead := (hmain.append (.text (n := true) (s := "\n\n") (by decide))).append hguard
  have htry := (hhead.append .unit).append (.text (n := true) (s := "try:\n") (by decide))
  have hrun := ((htry.append .unit).append .unit).append
    (.text (n := true) (s := "asyncio.run(main())\n") (by decide))
  have hexcept := (hrun.append .unit).append
    (.text (n := true) (s := "except KeyboardInterrupt:\n") (by decide))
  exact ((hexcept.append .unit).append .unit).append (.text (by decide))

/-- The sections of a script are alike one by one. -/
theorem forall₂_sections {code code' : String} {c c' : Context} (hcode : v.Sections code code')
    (h : v.Contexts c c') :
    List.Forall₂ v.Sections (c.sections code) (c'.sections code') := by
  have himports : List.Forall₂ v.Sections c.headerLines c'.headerLines := by
    unfold Context.headerLines
    rw [List.forall₂_map_left_iff, List.forall₂_map_right_iff, ← h.tasks]
    split
    · exact h.imports.imp fun _ _ hentry => hentry.2
    · have hasyncio : v.Entries ("asyncio", "import asyncio") ("asyncio", "import asyncio") :=
        ⟨rfl, false, .text (by decide)⟩
      exact (forall₂_request h.imports hasyncio).imp fun _ _ hentry => hentry.2
  have hheader : List.Forall₂ v.Sections
      (if c.headerLines.isEmpty then [] else ["\n".intercalate c.headerLines])
      (if c'.headerLines.isEmpty then [] else ["\n".intercalate c'.headerLines]) := by
    have hempty : c.headerLines.isEmpty = c'.headerLines.isEmpty := by
      rw [Bool.eq_iff_iff, List.isEmpty_iff_length_eq_zero, List.isEmpty_iff_length_eq_zero,
        himports.length_eq]
    rw [hempty]
    split
    · exact .nil
    · exact .cons (Alike.exists_intercalate (by decide) himports) .nil
  have hhelpers : List.Forall₂ v.Sections (c.helpers.map (·.2)) (c'.helpers.map (·.2)) := by
    rw [List.forall₂_map_left_iff, List.forall₂_map_right_iff]
    exact h.helpers.imp fun _ _ hentry => hentry.2
  have hrunner : List.Forall₂ v.Sections
      (if c.tasks.isEmpty then [] else [Context.runner c.indent c.tasks])
      (if c'.tasks.isEmpty then [] else [Context.runner c'.indent c'.tasks]) := by
    rw [← h.tasks, h.leftUnit, h.rightUnit]
    split
    · exact .nil
    · exact .cons ⟨true, alike_runner h.names⟩ .nil
  exact List.rel_append (List.rel_append (List.rel_append hheader hhelpers) (.cons hcode .nil))
    hrunner

/-- Scripts of alike code and alike contexts are alike. -/
theorem sections_finalize {code code' : String} {c c' : Context} (hcode : v.Sections code code')
    (h : v.Contexts c c') : v.Sections (c.finalize code).1 (c'.finalize code').1 := by
  rw [Context.finalize_fst, Context.finalize_fst]
  have htrimmed : List.Forall₂ (fun cs ds => ∃ n, v.Versions true n cs ds)
      ((c.sections code).map fun s => Text.trimLineFeeds s.toList)
      ((c'.sections code').map fun s => Text.trimLineFeeds s.toList) := by
    rw [List.forall₂_map_left_iff, List.forall₂_map_right_iff]
    exact (forall₂_sections hcode h).imp fun _ _ ⟨_, hsection⟩ =>
      Versions.exists_trimLineFeeds hsection
  have hkept := List.rel_filter (p := (!Text.allBlank ·)) (q := (!Text.allBlank ·))
    (fun _ _ ⟨_, htext⟩ => by simp [htext.allBlank_eq]) htrimmed
  have hseparator : ∀ n, Text.lay n ['\n', '\n', '\n'] = some true := by
    intro n
    cases n <;> rfl
  obtain ⟨n, hjoined⟩ := Versions.exists_intercalate hseparator hkept
  refine exists_versions_tidy (n := n) ?_
  rw [Context.joinSections, Context.joinSections, String.toList_ofList, String.toList_ofList]
  exact hjoined

end Variation

end PollScript
