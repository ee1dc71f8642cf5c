import PollScript.Proofs.Setup
import PollScript.Proofs.SolidLines

/-!
# Tokens and layout

Code is indented and put into its normal form line by line, by functions that know nothing
of literals: they put blanks in front of lines, cut blanks off the ends of lines, and drop
empty lines. Still no token changes by that, be it a literal with any blanks in it, as long
as no literal goes on over the end of a line.

A reader goes through a text character by character. A blank ends the token at hand and does
nothing else, so it does not matter how many blanks there are where a line begins or ends.

Results:

* `tokens?_eq_some_iff`: which tokens a text consists of.
* `tokens?_append_lineFeed`: a text is read line by line.
* `tokens?_indentLines`, `tokens?_tidy`: the edits by lines keep the tokens.
* `Setup.tokens?_layout`: so do indentation and finishing, for every generator.
-/

namespace PollScript

namespace Text

/-! ## Reading tokens -/

/-- A part of a text that layout is put around. -/
inductive Token where
  | literal (content : List Char)
  /-- A run of characters without blanks and quotes, as long as it goes. -/
  | run (chars : List Char)
deriving DecidableEq, Repr

/-- What a reader is in the middle of, and what it has read of it. -/
inductive Reading where
  | nothing
  | run (read : List Char)
  | literal (read : List Char)
  | escape (read : List Char)

/-- The tokens up to the end of a text. There are none if a literal is open at the end of
    its line. -/
def tokensFrom : Reading → List Char → Option (List Token)
  | .nothing, [] => some []
  | .run read, [] => some [.run read]
  | .literal _, [] | .escape _, [] => none
  | .nothing, c :: cs =>
    if c = '"' then tokensFrom (.literal []) cs
    else if isBlank c then tokensFrom .nothing cs
    else tokensFrom (.run [c]) cs
  | .run read, c :: cs =>
    if c = '"' then (tokensFrom (.literal []) cs).map (.run read :: ·)
    else if isBlank c then (tokensFrom .nothing cs).map (.run read :: ·)
    else tokensFrom (.run (read ++ [c])) cs
  | .literal read, c :: cs =>
    if c = '\n' then none
    else if c = '"' then (tokensFrom .nothing cs).map (.literal read :: ·)
    else if c = '\\' then tokensFrom (.escape (read ++ [c])) cs
    else tokensFrom (.literal (read ++ [c])) cs
  | .escape read, c :: cs =>
    if c = '\n' then none else tokensFrom (.literal (read ++ [c])) cs

/-- The tokens of a text, if each literal closes on the line on which it opens. -/
def tokens? (cs : List Char) : Option (List Token) :=
  tokensFrom .nothing cs

section

variable (c : Char) (read cs : List Char)

theorem tokensFrom_nothing_cons : tokensFrom .nothing (c :: cs) =
    if c = '"' then tokensFrom (.literal []) cs
    else if isBlank c then tokensFrom .nothing cs
    else tokensFrom (.run [c]) cs :=
  rfl

theorem tokensFrom_run_cons : tokensFrom (.run read) (c :: cs) =
    if c = '"' then (tokensFrom (.literal []) cs).map (.run read :: ·)
    else if isBlank c then (tokensFrom .nothing cs).map (.run read :: ·)
    else tokensFrom (.run (read ++ [c])) cs :=
  rfl

theorem tokensFrom_literal_cons : tokensFrom (.literal read) (c :: cs) =
    if c = '\n' then none
    else if c = '"' then (tokensFrom .nothing cs).map (.literal read :: ·)
    else if c = '\\' then tokensFrom (.escape (read ++ [c])) cs
    else tokensFrom (.literal (read ++ [c])) cs :=
  rfl

theorem tokensFrom_escape_cons : tokensFrom (.escape read) (c :: cs) =
    if c = '\n' then none else tokensFrom (.literal (read ++ [c])) cs :=
  rfl

end

/-! ## What a text consists of -/

/-- What may stand between the quotes of a literal: no line feed, and no quote but behind a
    backslash, which goes with the character behind it. -/
inductive IsContent : List Char → Prop
  | nil : IsContent []
  | char {c : Char} {cs : List Char} (plain : c ≠ '"' ∧ c ≠ '\\' ∧ c ≠ '\n')
      (rest : IsContent cs) : IsContent (c :: cs)
  | escape {c : Char} {cs : List Char} (line : c ≠ '\n') (rest : IsContent cs) :
      IsContent ('\\' :: c :: cs)

/-- Whether a character may stand in a run. -/
def isRunChar (c : Char) : Bool :=
  c != '"' && !isBlank c

/-- The text consists of the tokens, with blanks between them. -/
inductive Tokenized : List Char → List Token → Prop
  | nil : Tokenized [] []
  | blank {c : Char} {cs : List Char} {ts : List Token} (blank : isBlank c = true)
      (rest : Tokenized cs ts) : Tokenized (c :: cs) ts
  | literal {content cs : List Char} {ts : List Token} (isContent : IsContent content)
      (rest : Tokenized cs ts) : Tokenized ('"' :: (content ++ '"' :: cs)) (.literal content :: ts)
  /-- A run is not empty, and ends where it cannot go on. -/
  | run {chars cs : List Char} {ts : List Token} (ne_nil : chars ≠ [])
      (isRun : ∀ c ∈ chars, isRunChar c = true) (ends : ∀ c ∈ cs.head?, isRunChar c = false)
      (rest : Tokenized cs ts) : Tokenized (chars ++ cs) (.run chars :: ts)

/-! ## Reading through a token -/

@[simp] theorem isBlank_quote : isBlank '"' = false := by
  decide

theorem not_isRunChar {c : Char} (h : isRunChar c = false) : c = '"' ∨ isBlank c = true := by
  simpa [isRunChar, or_iff_not_imp_left] using h

/-- A run is read as far as it goes. -/
theorem tokensFrom_run (read : List Char) {chars cs : List Char}
    (isRun : ∀ c ∈ chars, isRunChar c = true) (ends : ∀ c ∈ cs.head?, isRunChar c = false) :
    tokensFrom (.run read) (chars ++ cs) =
      (tokensFrom .nothing cs).map (.run (read ++ chars) :: ·) := by
  induction chars generalizing read with
  | nil =>
    cases cs with
    | nil => exact congrArg (fun chars => some [Token.run chars]) (List.append_nil read).symm
    | cons c cs =>
      rw [List.nil_append, List.append_nil, tokensFrom_run_cons, tokensFrom_nothing_cons]
      rcases not_isRunChar (ends c rfl) with rfl | hblank
      · rw [if_pos rfl, if_pos rfl]
      · have hquote : c ≠ '"' := by
          rintro rfl
          simp at hblank
        rw [if_neg hquote, if_neg hquote, if_pos hblank, if_pos hblank]
  | cons c chars ih =>
    obtain ⟨hc, hchars⟩ := List.forall_mem_cons.mp isRun
    obtain ⟨hquote, hblank⟩ : c ≠ '"' ∧ isBlank c = false := by simpa [isRunChar] using hc
    rw [List.cons_append, tokensFrom_run_cons, if_neg hquote, if_neg (by simp [hblank]),
      ih _ hchars, List.append_assoc, List.singleton_append]

/-- A literal is read up to its closing quote. -/
theorem tokensFrom_literal (read : List Char) {content : List Char}
    (isContent : IsContent content) (cs : List Char) :
    tokensFrom (.literal read) (content ++ '"' :: cs) =
      (tokensFrom .nothing cs).map (.literal (read ++ content) :: ·) := by
  induction isContent generalizing read with
  | nil =>
    rw [List.nil_append, List.append_nil, tokensFrom_literal_cons, if_neg (by decide), if_pos rfl]
  | char plain rest ih =>
    obtain ⟨hquote, hslash, hline⟩ := plain
    rw [List.cons_append, tokensFrom_literal_cons, if_neg hline, if_neg hquote, if_neg hslash, ih]
    simp
  | escape line rest ih =>
    rw [List.cons_append, tokensFrom_literal_cons, if_neg (by decide), if_neg (by decide),
      if_pos rfl, List.cons_append, tokensFrom_escape_cons, if_neg line, ih]
    simp

/-- A text that consists of tokens is read as these. -/
theorem tokens?_of_tokenized {cs : List Char} {ts : List Token} (h : Tokenized cs ts) :
    tokens? cs = some ts := by
  unfold tokens?
  induction h with
  | nil => rfl
  | blank blank rest ih =>
    rw [tokensFrom_nothing_cons, if_neg (by rintro rfl; simp at blank), if_pos blank, ih]
  | literal isContent rest ih =>
    rw [tokensFrom_nothing_cons, if_pos rfl, tokensFrom_literal [] isContent, ih]
    rfl
  | @run chars cs ts ne_nil isRun ends rest ih =>
    obtain ⟨c, chars, rfl⟩ := List.exists_cons_of_ne_nil ne_nil
    obtain ⟨hc, hchars⟩ := List.forall_mem_cons.mp isRun
    obtain ⟨hquote, hblank⟩ : c ≠ '"' ∧ isBlank c = false := by simpa [isRunChar] using hc
    rw [List.cons_append, tokensFrom_nothing_cons, if_neg hquote, if_neg (by simp [hblank]),
      tokensFrom_run [c] hchars ends, ih]
    rfl

/-- The tokens are those of what a reader is in the middle of, and of the text. -/
def Completes : Reading → List Char → List Token → Prop
  | .nothing, cs, ts => Tokenized cs ts
  | .run read, cs, ts => ∃ more rest after, cs = more ++ rest ∧
      (∀ c ∈ more, isRunChar c = true) ∧ (∀ c ∈ rest.head?, isRunChar c = false) ∧
      Tokenized rest after ∧ ts = .run (read ++ more) :: after
  | .literal read, cs, ts => ∃ more rest after, cs = more ++ '"' :: rest ∧ IsContent more ∧
      Tokenized rest after ∧ ts = .literal (read ++ more) :: after
  | .escape read, cs, ts => ∃ c more rest after, cs = c :: more ++ '"' :: rest ∧ c ≠ '\n' ∧
      IsContent more ∧ Tokenized rest after ∧ ts = .literal (read ++ c :: more) :: after

theorem completes_of_tokensFrom {r : Reading} {cs : List Char} {ts : List Token}
    (h : tokensFrom r cs = some ts) : Completes r cs ts := by
  -- every character leads to another reading, so the induction is for all of them at once
  induction cs generalizing r ts with
  | nil =>
    cases r with
    | nothing => cases h; exact .nil
    | run read => cases h; exact ⟨[], [], [], rfl, by simp, by simp, .nil, by simp⟩
    | literal read => cases h
    | escape read => cases h
  | cons c cs ih =>
    cases r with
    | nothing =>
      rw [tokensFrom_nothing_cons] at h
      split at h
      · next hquote =>
        obtain ⟨content, rest, after, rfl, hcontent, hrest, rfl⟩ := ih h
        subst hquote
        exact .literal hcontent hrest
      · next hquote =>
        split at h
        · next hblank => exact .blank hblank (ih h)
        · next hblank =>
          obtain ⟨more, rest, after, rfl, hmore, hends, hrest, rfl⟩ := ih h
          have hrun : ∀ d ∈ c :: more, isRunChar d = true :=
            List.forall_mem_cons.mpr ⟨by simp [isRunChar, hquote, hblank], hmore⟩
          exact .run (List.cons_ne_nil _ _) hrun hends hrest
    | run read =>
      rw [tokensFrom_run_cons] at h
      split at h
      · next hquote =>
        obtain ⟨later, hlater, rfl⟩ := Option.map_eq_some_iff.mp h
        obtain ⟨content, rest, after, rfl, hcontent, hrest, rfl⟩ := ih hlater
        subst hquote
        exact ⟨[], _, _, rfl, by simp, by simp [isRunChar], .literal hcontent hrest, by simp⟩
      · next hquote =>
        split at h
        · next hblank =>
          obtain ⟨later, hlater, rfl⟩ := Option.map_eq_some_iff.mp h
          exact ⟨[], _, _, rfl, by simp, by simp [isRunChar, hblank], .blank hblank (ih hlater),
            by simp⟩
        · next hblank =>
          obtain ⟨more, rest, after, rfl, hmore, hends, hrest, rfl⟩ := ih h
          refine ⟨c :: more, rest, after, rfl, ?_, hends, hrest, by simp⟩
          exact List.forall_mem_cons.mpr ⟨by simp [isRunChar, hquote, hblank], hmore⟩
    | literal read =>
      rw [tokensFrom_literal_cons] at h
      split at h
      · cases h
      · next hline =>
        split at h
        · next hquote =>
          obtain ⟨later, hlater, rfl⟩ := Option.map_eq_some_iff.mp h
          exact ⟨[], cs, later, by rw [hquote]; rfl, .nil, ih hlater, by simp⟩
        · next hquote =>
          split at h
          · next hslash =>
            obtain ⟨d, more, rest, after, rfl, hd, hmore, hrest, rfl⟩ := ih h
            subst hslash
            exact ⟨'\\' :: d :: more, rest, after, rfl, .escape hd hmore, hrest, by simp⟩
          · next hslash =>
            obtain ⟨more, rest, after, rfl, hmore, hrest, rfl⟩ := ih h
            exact ⟨c :: more, rest, after, rfl, .char ⟨hquote, hslash, hline⟩ hmore, hrest,
              by simp⟩
    | escape read =>
      rw [tokensFrom_escape_cons] at h
      split at h
      · cases h
      · next hline =>
        obtain ⟨more, rest, after, rfl, hmore, hrest, rfl⟩ := ih h
        exact ⟨c, more, rest, after, rfl, hline, hmore, hrest, by simp⟩

/-- Which tokens a text consists of. There is at most one way to read it. -/
theorem tokens?_eq_some_iff {cs : List Char} {ts : List Token} :
    tokens? cs = some ts ↔ Tokenized cs ts :=
  ⟨completes_of_tokensFrom, tokens?_of_tokenized⟩

/-! ## Layout -/

/-- Blanks in front do not show. -/
theorem tokens?_blanks_append {blanks : List Char} (h : allBlank blanks = true)
    (cs : List Char) : tokens? (blanks ++ cs) = tokens? cs := by
  unfold tokens?
  induction blanks with
  | nil => rfl
  | cons c blanks ih =>
    obtain ⟨hc, hblanks⟩ : isBlank c = true ∧ allBlank blanks = true := by
      simpa [allBlank] using h
    rw [List.cons_append, tokensFrom_nothing_cons, if_neg (by rintro rfl; simp at hc), if_pos hc,
      ih hblanks]

/-- Blanks do not close a literal. -/
theorem tokensFrom_literal_blanks (read : List Char) {blanks : List Char}
    (h : allBlank blanks = true) : tokensFrom (.literal read) blanks = none := by
  induction blanks generalizing read with
  | nil => rfl
  | cons c blanks ih =>
    obtain ⟨hc, hblanks⟩ : isBlank c = true ∧ allBlank blanks = true := by
      simpa [allBlank] using h
    have hslash : c ≠ '\\' := by
      rintro rfl
      exact absurd hc (by decide)
    rw [tokensFrom_literal_cons, if_neg (show c ≠ '"' by rintro rfl; simp at hc), if_neg hslash,
      ih _ hblanks, ite_self]

/-- Blanks at the end do not show. -/
theorem tokensFrom_append_blanks (r : Reading) (cs : List Char) {blanks : List Char}
    (h : allBlank blanks = true) : tokensFrom r (cs ++ blanks) = tokensFrom r cs := by
  induction cs generalizing r with
  | nil =>
    have hnothing : tokensFrom .nothing blanks = some [] := by
      have htokens := tokens?_blanks_append h []
      rwa [List.append_nil] at htokens
    cases r with
    | nothing => exact hnothing
    | run read =>
      have hends : ∀ c ∈ blanks.head?, isRunChar c = false := by
        intro c hc
        have hblank : isBlank c = true := List.all_eq_true.mp h c (List.mem_of_mem_head? hc)
        simp [isRunChar, hblank]
      have hread := tokensFrom_run read (List.forall_mem_nil _) hends
      rw [hnothing, List.append_nil] at hread
      exact hread
    | literal read => exact tokensFrom_literal_blanks read h
    | escape read =>
      cases blanks with
      | nil => rfl
      | cons c blanks =>
        have hblanks : allBlank blanks = true := by
          simp only [allBlank, List.all_cons, Bool.and_eq_true] at h
          exact h.2
        rw [List.nil_append, tokensFrom_escape_cons, tokensFrom_literal_blanks _ hblanks, ite_self]
        rfl
  | cons c cs ih =>
    rw [List.cons_append]
    cases r with
    | nothing => simp only [tokensFrom_nothing_cons, ih]
    | run read => simp only [tokensFrom_run_cons, ih]
    | literal read => simp only [tokensFrom_literal_cons, ih]
    | escape read => simp only [tokensFrom_escape_cons, ih]

theorem tokens?_append_blanks (cs : List Char) {blanks : List Char}
    (h : allBlank blanks = true) : tokens? (cs ++ blanks) = tokens? cs :=
  tokensFrom_append_blanks .nothing cs h

/-- A line feed ends whatever is at hand, and a reader goes on from nothing. -/
theorem tokensFrom_append_lineFeed (r : Reading) (front back : List Char) :
    tokensFrom r (front ++ '\n' :: back) =
      (tokensFrom r front).bind fun ts => (tokens? back).map (ts ++ ·) := by
  have hfeed : isBlank '\n' = true := by decide
  induction front generalizing r with
  | nil =>
    rw [List.nil_append]
    cases r with
    | nothing =>
      rw [tokensFrom_nothing_cons, if_neg (by decide), if_pos hfeed]
      exact Option.map_id'.symm
    | run read =>
      rw [tokensFrom_run_cons, if_neg (by decide), if_pos hfeed]
      rfl
    | literal read => rfl
    | escape read => rfl
  | cons c front ih =>
    cases r with
    | nothing =>
      simp only [List.cons_append, tokensFrom_nothing_cons, ih]
      split
      · rfl
      · split <;> rfl
    | run read =>
      simp only [List.cons_append, tokensFrom_run_cons, ih]
      split
      · simp [Option.map_bind, Option.bind_map, Function.comp_def]
      · split
        · simp [Option.map_bind, Option.bind_map, Function.comp_def]
        · rfl
    | literal read =>
      simp only [List.cons_append, tokensFrom_literal_cons, ih]
      split
      · rfl
      · split
        · simp [Option.map_bind, Option.bind_map, Function.comp_def]
        · split <;> rfl
    | escape read =>
      simp only [List.cons_append, tokensFrom_escape_cons, ih]
      split <;> rfl

/-- A text is read line by line. -/
theorem tokens?_append_lineFeed (front back : List Char) :
    tokens? (front ++ '\n' :: back) =
      (tokens? front).bind fun ts => (tokens? back).map (ts ++ ·) :=
  tokensFrom_append_lineFeed .nothing front back

/-- An edit that goes line by line and keeps the tokens of a line keeps those of a text. -/
theorem tokens?_edit {edit : List Char → List Char}
    (step : ∀ {line : List Char}, '\n' ∉ line → ∀ rest,
      edit (line ++ '\n' :: rest) = edit line ++ '\n' :: edit rest)
    (keeps : ∀ {line : List Char}, '\n' ∉ line → tokens? (edit line) = tokens? line)
    (cs : List Char) : tokens? (edit cs) = tokens? cs := by
  induction cs using line_induction with
  | last line hline => exact keeps hline
  | cons line rest hline ih =>
    rw [step hline, tokens?_append_lineFeed, keeps hline, ih, tokens?_append_lineFeed]

/-- Indentation by blanks keeps the tokens. -/
theorem tokens?_indentLines {indent : String} (blank : allBlank indent.toList = true)
    (code : String) : tokens? (indentLines indent code).toList = tokens? code.toList := by
  rw [toList_indentLines]
  refine tokens?_edit (fun hline => indentChars_append_line _ hline) (fun {line} hline => ?_) _
  rw [indentChars_of_not_mem _ hline]
  split
  · rfl
  · exact tokens?_blanks_append blank line

/-- What is cut off the end of a line is blank. -/
theorem exists_trimEnd (cs : List Char) :
    ∃ blanks, cs = trimEnd cs ++ blanks ∧ allBlank blanks = true := by
  refine ⟨(cs.reverse.takeWhile isBlank).reverse, ?_, ?_⟩
  · rw [trimEnd, dropEndWhile, ← List.reverse_append, List.takeWhile_append_dropWhile,
      List.reverse_reverse]
  · rw [allBlank, List.all_reverse]
    exact List.all_takeWhile

theorem tokens?_trimEnd (cs : List Char) : tokens? (trimEnd cs) = tokens? cs := by
  obtain ⟨blanks, hsplit, hblanks⟩ := exists_trimEnd cs
  conv => rhs; rw [hsplit]
  rw [tokens?_append_blanks _ hblanks]

theorem tokens?_trimLineFeeds (cs : List Char) : tokens? (trimLineFeeds cs) = tokens? cs := by
  have hfeeds : ∀ n, allBlank (List.replicate n '\n') = true := by
    intro n
    have hfeed : isBlank '\n' = true := by decide
    simp [allBlank, hfeed]
  obtain ⟨before, after, hsplit⟩ := exists_trimLineFeeds cs
  conv => rhs; rw [hsplit]
  rw [tokens?_append_blanks _ (hfeeds after), tokens?_blanks_append (hfeeds before)]

/-- The normal form keeps the tokens. -/
theorem tokens?_tidy (code : String) : tokens? (tidy code).toList = tokens? code.toList := by
  have hbody : tokens? (trimLineFeeds (trimLines code.toList)) = tokens? code.toList := by
    rw [tokens?_trimLineFeeds]
    refine tokens?_edit (fun {line} hline rest => ?_) (fun {line} hline => ?_) _
    · rw [trimLines_append_line hline, trimLines_of_not_mem hline]
    · rw [trimLines_of_not_mem hline, tokens?_trimEnd]
  rw [toList_tidy]
  split
  · next h => rw [← hbody, h]
  · rw [tokens?_append_blanks _ (by decide), hbody]

end Text

open Script

/-- Sections that are joined keep the tokens of the only one that there is. -/
theorem Script.Context.tokens?_joinSections (code : String) :
    Text.tokens? (joinSections [code]).toList = Text.tokens? code.toList := by
  have htrimmed := Text.tokens?_trimLineFeeds code.toList
  rw [joinSections, String.toList_ofList]
  cases hblank : Text.allBlank (Text.trimLineFeeds code.toList) with
  | true =>
    have hnone := Text.tokens?_append_blanks [] hblank
    rw [List.nil_append, htrimmed] at hnone
    simp [hblank, hnone]
  | false => simpa [hblank] using htrimmed

/-- Where nothing was collected, the code is the only section. -/
theorem Script.Context.sections_of_nothing {c : Context} (imports : c.imports = [])
    (helpers : c.helpers = []) (tasks : c.tasks = []) (code : String) :
    c.sections code = [code] := by
  simp [sections, arrange, headerLines, imports, helpers, tasks]

namespace Setup

/-- The unit of indentation is made of blanks, however a builder is set up. -/
theorem allBlank_indent (s : Setup) : Text.allBlank s.builder.indent.toList = true := by
  rw [builder_eq]
  cases hlast : (s.steps.filterMap Builder.Step.indent?).getLast? with
  | none =>
    have hdefault : Text.allBlank Context.defaultIndent.toList = true := by decide
    exact hdefault
  | some indent =>
    obtain ⟨step, -, hstep⟩ := List.mem_filterMap.mp (List.mem_of_getLast? hlast)
    cases step with
    | indent width =>
      cases hstep
      have hspace : Text.isBlank ' ' = true := by decide
      simp [Text.allBlank, hspace]
    | add spec => cases hstep
    | set type emitter => cases hstep
    | map user builtin => cases hstep

theorem indent_of_build {s : Setup} {g : Generator} (built : s.builder.build = .ok g) :
    g.indent = s.builder.indent := by
  rcases s.fault_or_consistent with ⟨fault, hfault⟩ | consistent
  · rw [build_of_fault hfault] at built
    cases built
  · rw [build_of_consistent consistent] at built
    cases built
    rfl

/-- Neither indentation nor finishing changes a token of a text, for every generator that can
    be built. So a text whose literals close on their lines has the same tokens before and
    after, and one in which a literal is open at the end of a line has none in each case. -/
theorem tokens?_layout {s : Setup} {g : Generator} (built : s.builder.build = .ok g)
    {c : Context} (imports : c.imports = []) (helpers : c.helpers = []) (tasks : c.tasks = [])
    (code : String) :
    Text.tokens? (Text.indentLines g.indent code).toList = Text.tokens? code.toList ∧
      Text.tokens? (c.finalize code).1.toList = Text.tokens? code.toList := by
  refine ⟨Text.tokens?_indentLines ?_ code, ?_⟩
  · rw [indent_of_build built]
    exact s.allBlank_indent
  · rw [Context.finalize_fst, Text.tokens?_tidy,
      Context.sections_of_nothing imports helpers tasks, Context.tokens?_joinSections]

/-- A line feed, a call with a literal that has blanks, an escaped quote and a line separator
    in it, and a comparison behind blanks. -/
def quotedCall : String :=
  "\nsay(\"  a\\\"\u2028 \")  \n\u0085x <  1 \n"

/-- Each part of the call and of the comparison is still there after the layout. -/
theorem tokens?_quotedCall :
    Text.tokens? quotedCall.toList = some [.run "say(".toList,
      .literal "  a\\\"\u2028 ".toList, .run ")".toList, .run "x".toList, .run "<".toList,
      .run "1".toList] ∧
      Text.tokens? (Text.indentLines "  " quotedCall).toList = Text.tokens? quotedCall.toList ∧
      Text.tokens? ((Context.withIndent "  ").finalize quotedCall).1.toList =
        Text.tokens? quotedCall.toList := by
  have hbuild : Setup.builder ⟨.catalog, [.indent 2]⟩ = Builder.default.indentWidth 2 := rfl
  have built := hbuild ▸ Builder.build_default 2
  exact ⟨by decide +kernel, tokens?_layout built rfl rfl rfl quotedCall⟩

end Setup

end PollScript
