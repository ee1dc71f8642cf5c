import PollScript.Proofs.Lines
import PollScript.Script.Literal

/-!
# Scanning code

A scanner reads code character by character, as far as it takes to tell string
literals from the rest. A quote opens a literal, and the next quote that no
backslash stands before closes it. A literal must end on its line. Outside of
literals, brackets must be closed in the order in which they were opened, and
backslashes, comments and characters beyond ASCII are refused.

Code that the scanner leaves as it entered it is balanced. Balanced code may
stand anywhere outside of a literal, and what is made of balanced parts stays
balanced.

Results:

* `Takes.frame`: what is owed before code does not change how the code is read.
* `balanced_quote`: the literal of any text is balanced.
* `balanced_indentLines`, `balanced_tidy`: the edits by lines keep code balanced.
-/

namespace PollScript

/-! ## The scanner -/

/-- Where a character stands. -/
inductive Scan.Mode where
  | outside
  | inside
  | escaped
deriving DecidableEq, Repr

/-- What the scanner remembers: where it is, and the closing brackets that are due, the next
    one first. -/
structure Scan where
  mode : Scan.Mode
  owed : List Char
deriving DecidableEq, Repr

namespace Scan

/-- The bracket that closes what a bracket opens. -/
def closer? : Char → Option Char
  | '(' => some ')'
  | '[' => some ']'
  | '\x7b' => some '\x7d'
  | _ => none

/-- Whether a character closes a bracket. -/
def isCloser (c : Char) : Bool :=
  c == ')' || c == ']' || c == '\x7d'

/-- Whether a character may not stand outside of literals. -/
def isRefused (c : Char) : Bool :=
  c == '\\' || c == '#' || 128 ≤ c.toNat

/-- Whether a character ends a line. -/
def endsLine (c : Char) : Bool :=
  c == '\n' || c == '\r'

/-- Reads a character outside of literals. -/
def stepOutside (owed : List Char) (c : Char) : Option Scan :=
  if c = '"' then some ⟨.inside, owed⟩
  else match closer? c with
    | some closer => some ⟨.outside, closer :: owed⟩
    | none =>
      if isCloser c then
        match owed with
        | next :: rest => if c = next then some ⟨.outside, rest⟩ else none
        | [] => none
      else if isRefused c then none
      else some ⟨.outside, owed⟩

/-- Reads a character. Nothing comes of one that may not stand there. -/
def step : Scan → Char → Option Scan
  | ⟨.outside, owed⟩, c => stepOutside owed c
  | ⟨.inside, owed⟩, c =>
    if endsLine c then none
    else if c = '"' then some ⟨.outside, owed⟩
    else if c = '\\' then some ⟨.escaped, owed⟩
    else some ⟨.inside, owed⟩
  | ⟨.escaped, owed⟩, c => if endsLine c then none else some ⟨.inside, owed⟩

/-- Reads a text. -/
def run (s : Scan) (cs : List Char) : Option Scan :=
  cs.foldlM step s

/-- The scanner before the first character. -/
def start : Scan := ⟨.outside, []⟩

/-- Whether the scanner can read a text, which ends outside of literals with all
    brackets closed. -/
def accepts (text : String) : Bool :=
  start.run text.toList = some start

@[simp] theorem run_nil (s : Scan) : s.run [] = some s :=
  rfl

theorem run_cons (s : Scan) (c : Char) (cs : List Char) :
    s.run (c :: cs) = (s.step c).bind fun t => t.run cs :=
  rfl

theorem run_append (s : Scan) (cs ds : List Char) :
    s.run (cs ++ ds) = (s.run cs).bind fun t => t.run ds := by
  simp only [run, List.foldlM_append]
  rfl

/-! ## Frames -/

/-- A scanner that owes more afterwards. -/
def owing (s : Scan) (more : List Char) : Scan :=
  ⟨s.mode, s.owed ++ more⟩

theorem step_owing {s t : Scan} {c : Char} (h : s.step c = some t) (more : List Char) :
    (s.owing more).step c = some (t.owing more) := by
  obtain ⟨mode, owed⟩ := s
  cases mode with
  | outside =>
    simp only [step, stepOutside, owing] at h ⊢
    split at h
    · next hc => cases h; rw [if_pos hc]
    · next hc =>
      rw [if_neg hc]
      split at h
      · cases h; rfl
      · split at h
        · split at h
          · split at h
            · cases h; simp_all
            · cases h
          · cases h
        · split at h
          · cases h
          · cases h; simp_all
  | inside =>
    simp only [step, owing] at h ⊢
    split at h
    · cases h
    · split at h
      · cases h; simp_all
      · split at h <;> cases h <;> simp_all
  | escaped =>
    simp only [step, owing] at h ⊢
    split at h
    · cases h
    · cases h; simp_all

theorem run_owing {s t : Scan} {cs : List Char} (h : s.run cs = some t) (more : List Char) :
    (s.owing more).run cs = some (t.owing more) := by
  induction cs generalizing s with
  | nil => cases h; rfl
  | cons c cs ih =>
    rw [run_cons, Option.bind_eq_some_iff] at h ⊢
    obtain ⟨mid, hstep, hrest⟩ := h
    exact ⟨mid.owing more, step_owing hstep more, ih hrest⟩

end Scan

/-! ## Balanced code -/

/-- The code is read outside of literals from its first to its last character,
    and turns the brackets that are owed from `before` into `after`. -/
def Takes (before after : List Char) (code : String) : Prop :=
  Scan.run ⟨.outside, before⟩ code.toList = some ⟨.outside, after⟩

instance (before after : List Char) (code : String) : Decidable (Takes before after code) :=
  inferInstanceAs (Decidable (_ = _))

/-- The code leaves the scanner as it was. -/
def Balanced (code : String) : Prop :=
  Takes [] [] code

instance (code : String) : Decidable (Balanced code) :=
  inferInstanceAs (Decidable (Takes [] [] code))

theorem accepts_iff {code : String} : Scan.accepts code = true ↔ Balanced code :=
  decide_eq_true_iff

variable {before mid after : List Char} {code more : String}

theorem Takes.append (hcode : Takes before mid code) (hmore : Takes mid after more) :
    Takes before after (code ++ more) := by
  rw [Takes, String.toList_append, Scan.run_append, hcode]
  exact hmore

/-- What is owed before code does not change how the code is read. -/
theorem Takes.frame (h : Takes before after code) (owed : List Char) :
    Takes (before ++ owed) (after ++ owed) code :=
  Scan.run_owing h owed

/-- Balanced code may stand wherever brackets are open. -/
theorem Balanced.takes (h : Balanced code) (owed : List Char) : Takes owed owed code :=
  Takes.frame h owed

theorem Balanced.append (hcode : Balanced code) (hmore : Balanced more) :
    Balanced (code ++ more) :=
  Takes.append hcode hmore

theorem balanced_empty : Balanced "" := by
  decide

/-- Joining balanced code with balanced code in between gives balanced code. -/
theorem balanced_intercalate {separator : String} {parts : List String}
    (hseparator : Balanced separator) (hparts : ∀ part ∈ parts, Balanced part) :
    Balanced (separator.intercalate parts) := by
  induction parts with
  | nil => exact balanced_empty
  | cons part rest ih =>
    have hpart := hparts part List.mem_cons_self
    have hrest := ih fun other hother => hparts other (List.mem_cons_of_mem _ hother)
    cases rest with
    | nil => rwa [String.intercalate_singleton]
    | cons other rest =>
      rw [String.intercalate_cons_cons]
      exact (hpart.append hseparator).append hrest

/-! ## Characters without effect -/

namespace Scan

/-- The characters that open or close something. -/
def delimiters : List Char :=
  ['"', '(', ')', '[', ']', '\x7b', '\x7d']

/-- Whether a character may stand outside of literals and opens and closes
    nothing. -/
def isInert (c : Char) : Bool :=
  !delimiters.contains c && !isRefused c

variable {owed : List Char} {c : Char}

/-- A character that is no delimiter is refused or has no effect. -/
theorem stepOutside_of_not_mem (h : c ∉ delimiters) :
    stepOutside owed c = if isRefused c then none else some ⟨.outside, owed⟩ := by
  simp only [delimiters, List.mem_cons, List.not_mem_nil, or_false, not_or] at h
  obtain ⟨hquote, hopen, hclose, hopen', hclose', hopen'', hclose''⟩ := h
  have hcloser : closer? c = none := by
    unfold closer?
    split <;> simp_all
  have hisCloser : isCloser c = false := by
    simp [isCloser, hclose, hclose', hclose'']
  simp [stepOutside, hquote, hcloser, hisCloser]

theorem step_of_isInert (h : isInert c = true) :
    step ⟨.outside, owed⟩ c = some ⟨.outside, owed⟩ := by
  rw [isInert, Bool.and_eq_true, Bool.not_eq_true', Bool.not_eq_true'] at h
  have hmem : c ∉ delimiters := by
    simpa using h.1
  show stepOutside owed c = _
  rw [stepOutside_of_not_mem hmem, h.2]
  rfl

theorem run_of_isInert {cs : List Char} (h : ∀ c ∈ cs, isInert c = true) :
    run ⟨.outside, owed⟩ cs = some ⟨.outside, owed⟩ := by
  induction cs with
  | nil => rfl
  | cons c cs ih =>
    rw [run_cons, step_of_isInert (h c List.mem_cons_self)]
    exact ih fun d hd => h d (List.mem_cons_of_mem _ hd)

/-- A character that is no delimiter can only be left outside of literals where
    it is met there, and has no effect. -/
theorem eq_of_step_of_not_mem (h : c ∉ delimiters) {s : Scan}
    (hstep : s.step c = some ⟨.outside, owed⟩) : s = ⟨.outside, owed⟩ := by
  obtain ⟨mode, before⟩ := s
  have hquote : c ≠ '"' := fun hc => h (by rw [hc]; decide)
  cases mode with
  | outside =>
    rw [step, stepOutside_of_not_mem h] at hstep
    split at hstep
    · cases hstep
    · exact Option.some.inj hstep
  | inside =>
    rw [step] at hstep
    split at hstep
    · cases hstep
    · split at hstep <;> cases hstep
  | escaped =>
    rw [step] at hstep
    split at hstep <;> cases hstep

end Scan

theorem balanced_of_isInert (h : ∀ c ∈ code.toList, Scan.isInert c = true) : Balanced code :=
  Scan.run_of_isInert h

/-! ## Literals and names -/

open Script

/-- A character beyond ASCII is in no name, and neither are the characters with
    an effect. -/
theorem isInert_of_isNameChar {c : Char} (h : isNameChar c = true) : Scan.isInert c = true := by
  have hnot : ∀ d ∈ '\\' :: '#' :: Scan.delimiters, c ≠ d := by
    intro d hd hcd
    subst hcd
    have hall : ('\\' :: '#' :: Scan.delimiters).all (!isNameChar ·) = true := by decide
    have hnone := List.all_eq_true.mp hall c hd
    rw [h] at hnone
    cases hnone
  have hascii : c.toNat < 128 := by
    have hrange := range_of_isNameChar h
    omega
  have hmem : c ∉ Scan.delimiters := fun hc => hnot c (by simp [hc]) rfl
  have hslash : c ≠ '\\' := hnot _ (by simp)
  have hhash : c ≠ '#' := hnot _ (by simp)
  have hrefused : Scan.isRefused c = false := by
    simp only [Scan.isRefused, Bool.or_eq_false_iff, beq_eq_false_iff_ne, decide_eq_false_iff_not]
    exact ⟨⟨hslash, hhash⟩, by omega⟩
  simp [Scan.isInert, hmem, hrefused]

theorem balanced_of_isNameChar (h : ∀ c ∈ code.toList, isNameChar c = true) : Balanced code :=
  balanced_of_isInert fun c hc => isInert_of_isNameChar (h c hc)

theorem balanced_identifier (text : String) : Balanced (identifier text) :=
  balanced_of_isNameChar (identifier_isName text).1

/-- What stands for a character inside a literal is read inside of it. -/
theorem run_quoteChar (owed : List Char) (c : Char) :
    Scan.run ⟨.inside, owed⟩ (quoteChar c) = some ⟨.inside, owed⟩ := by
  unfold quoteChar
  split
  · rfl
  · rfl
  · rfl
  · rfl
  · rfl
  · next hslash hquote hfeed hreturn _ =>
    have hends : Scan.endsLine c = false := by
      simp only [Scan.endsLine, Bool.or_eq_false_iff, beq_eq_false_iff_ne]
      exact ⟨hfeed, hreturn⟩
    simp only [Scan.run_cons, Scan.step, hends, Scan.run_nil]
    rw [if_neg hquote, if_neg hslash]
    rfl

theorem run_quoteChars (owed : List Char) (cs : List Char) :
    Scan.run ⟨.inside, owed⟩ (quoteChars cs) = some ⟨.inside, owed⟩ := by
  induction cs with
  | nil => rfl
  | cons c cs ih =>
    rw [quoteChars, List.flatMap_cons, Scan.run_append, run_quoteChar]
    exact ih

/-- The literal of any text is balanced: it ends where it should and nowhere
    else. -/
theorem balanced_quote (text : String) : Balanced (quote text) := by
  unfold Balanced Takes quote
  rw [String.toList_ofList, List.append_assoc, Scan.run_append]
  show Scan.run ⟨.inside, []⟩ (quoteChars text.toList ++ ['"']) = _
  rw [Scan.run_append, run_quoteChars]
  rfl

/-! ## Edits by lines -/

namespace Scan

variable {s t : Scan}

/-- A line ends outside of literals. -/
theorem run_append_line {line rest : List Char} (h : s.run (line ++ '\n' :: rest) = some t) :
    ∃ owed, s.run line = some ⟨.outside, owed⟩ ∧ run ⟨.outside, owed⟩ rest = some t := by
  rw [run_append, Option.bind_eq_some_iff] at h
  obtain ⟨mid, hline, h⟩ := h
  rw [run_cons, Option.bind_eq_some_iff] at h
  obtain ⟨after, hfeed, hrest⟩ := h
  obtain ⟨mode, owed⟩ := mid
  cases mode with
  | outside => cases hfeed; exact ⟨owed, hline, hrest⟩
  | inside => cases hfeed
  | escaped => cases hfeed

theorem run_line_append {line rest : List Char} {owed : List Char}
    (hline : s.run line = some ⟨.outside, owed⟩) (hrest : run ⟨.outside, owed⟩ rest = some t) :
    s.run (line ++ '\n' :: rest) = some t := by
  rw [run_append, hline]
  exact hrest

/-- Dropping characters without effect from the end changes nothing. -/
theorem run_dropEndWhile {p : Char → Bool} (hp : ∀ c, p c = true → c ∉ delimiters)
    {cs owed : List Char} (h : s.run cs = some ⟨.outside, owed⟩) :
    s.run (Text.dropEndWhile p cs) = some ⟨.outside, owed⟩ := by
  obtain ⟨rs, rfl⟩ : ∃ rs : List Char, cs = rs.reverse := ⟨cs.reverse, by simp⟩
  unfold Text.dropEndWhile
  rw [List.reverse_reverse]
  induction rs with
  | nil => exact h
  | cons c rs ih =>
    by_cases hc : p c = true
    · rw [List.dropWhile_cons_of_pos hc]
      rw [List.reverse_cons, run_append, Option.bind_eq_some_iff] at h
      obtain ⟨mid, hmid, hlast⟩ := h
      have hstep : mid.step c = some ⟨.outside, owed⟩ := by
        rw [run_cons] at hlast
        cases hmidstep : mid.step c with
        | none => rw [hmidstep] at hlast; cases hlast
        | some after => rw [hmidstep] at hlast; exact hlast
      rw [eq_of_step_of_not_mem (hp c hc) hstep] at hmid
      exact ih hmid
    · rw [List.dropWhile_cons_of_neg hc]
      exact h

theorem not_mem_of_isBlank {c : Char} (h : Text.isBlank c = true) : c ∉ delimiters := by
  intro hc
  have hall : delimiters.all (!Text.isBlank ·) = true := by decide
  have hnone := List.all_eq_true.mp hall c hc
  rw [h] at hnone
  cases hnone

theorem run_trimEnd {cs owed : List Char} (h : s.run cs = some ⟨.outside, owed⟩) :
    s.run (Text.trimEnd cs) = some ⟨.outside, owed⟩ :=
  run_dropEndWhile (fun _ => not_mem_of_isBlank) h

theorem run_dropLineFeeds {before : List Char} {cs : List Char}
    (h : run ⟨.outside, before⟩ cs = some t) :
    run ⟨.outside, before⟩ (cs.dropWhile (· == '\n')) = some t := by
  induction cs with
  | nil => exact h
  | cons c cs ih =>
    by_cases hc : c = '\n'
    · subst hc
      exact ih h
    · rw [List.dropWhile_cons_of_neg (by simpa using hc)]
      exact h

theorem run_trimLineFeeds {before after cs : List Char}
    (h : run ⟨.outside, before⟩ cs = some ⟨.outside, after⟩) :
    run ⟨.outside, before⟩ (Text.trimLineFeeds cs) = some ⟨.outside, after⟩ := by
  refine run_dropEndWhile (fun c hc => ?_) (run_dropLineFeeds h)
  rw [beq_iff_eq.mp hc]
  decide

theorem run_trimLines {before after cs : List Char}
    (h : run ⟨.outside, before⟩ cs = some ⟨.outside, after⟩) :
    run ⟨.outside, before⟩ (Text.trimLines cs) = some ⟨.outside, after⟩ := by
  induction cs using Text.line_induction generalizing before with
  | last line hline =>
    rw [Text.trimLines_of_not_mem hline]
    exact run_trimEnd h
  | cons line rest hline ih =>
    obtain ⟨owed, hfirst, hrest⟩ := run_append_line h
    rw [Text.trimLines_append_line hline]
    exact run_line_append (run_trimEnd hfirst) (ih hrest)

theorem run_indentChars {indent : List Char} (hindent : ∀ c ∈ indent, isInert c = true)
    {before after cs : List Char} (h : run ⟨.outside, before⟩ cs = some ⟨.outside, after⟩) :
    run ⟨.outside, before⟩ (Text.indentChars indent cs) = some ⟨.outside, after⟩ := by
  have hline : ∀ {before after line : List Char}, '\n' ∉ line →
      run ⟨.outside, before⟩ line = some ⟨.outside, after⟩ →
      run ⟨.outside, before⟩ (Text.indentChars indent line) = some ⟨.outside, after⟩ := by
    intro before after line hnot h
    rw [Text.indentChars_of_not_mem indent hnot]
    split
    · exact h
    · rw [run_append, run_of_isInert hindent]
      exact h
  induction cs using Text.line_induction generalizing before with
  | last line hnot => exact hline hnot h
  | cons line rest hnot ih =>
    obtain ⟨owed, hfirst, hrest⟩ := run_append_line h
    rw [Text.indentChars_append_line indent hnot]
    exact run_line_append (hline hnot hfirst) (ih hrest)

end Scan

/-- Code one level deeper is balanced. -/
theorem balanced_indentLines {indent : String}
    (hindent : ∀ c ∈ indent.toList, Scan.isInert c = true) (h : Balanced code) :
    Balanced (Text.indentLines indent code) := by
  unfold Balanced Takes
  rw [Text.toList_indentLines]
  exact Scan.run_indentChars hindent h

/-- So is the normal form of a script. -/
theorem balanced_tidy (h : Balanced code) : Balanced (Text.tidy code) := by
  unfold Balanced Takes
  rw [Text.toList_tidy]
  have hbody := Scan.run_trimLineFeeds (Scan.run_trimLines h)
  split
  · rfl
  · rw [Scan.run_append, hbody]
    rfl

end PollScript
