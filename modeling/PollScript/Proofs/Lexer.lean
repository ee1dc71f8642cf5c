import PollScript.Proofs.Grammar
import PollScript.Proofs.Numerals

/-!
# Tokens of emitted code

A lexer cuts an expression into tokens. Spaces separate tokens, and so do line
feeds, but those only between brackets. A word goes on for as long as name
characters follow, and a number also over points. In strings the escapes for
quotes, backslashes, line ends and tabs are undone, and a line end is refused.

Code that was cut into tokens may be put behind other code wherever the two do
not run together in one word or number.

Results:

* `Spells.append`: tokens of code that is put together.
* `lexes_quote`: the literal of a text is the token of the text.
* `spells_identifier`, `spells_numeral`: names are names, and numerals are
  numbers.
-/

namespace PollScript

open Script

/-! ## The lexer -/

/-- What the lexer is reading. -/
inductive Lexer.Mode where
  | idle
  | word (read : List Char)
  | numeral (read : List Char)
  | string (content : List Char)
  | escaped (content : List Char)
deriving DecidableEq, Repr

/-- The state of the lexer, with the brackets that are open and the tokens that are read. -/
structure Lexer where
  mode : Lexer.Mode
  depth : Nat
  tokens : List Token
deriving DecidableEq, Repr

namespace Lexer

/-- The token of a word. -/
def wordToken (cs : List Char) : Token :=
  if keywords.contains (String.ofList cs) then .keyword (String.ofList cs)
  else .name (String.ofList cs)

/-- The token of what is being read. A string is not finished before its quote
    is read. -/
def pending? : Mode → Option (List Token)
  | .idle => some []
  | .word cs => some [wordToken cs]
  | .numeral cs => if isNumeral cs then some [.number (String.ofList cs)] else none
  | .string _ | .escaped _ => none

/-- Finishes what is being read. -/
def settle (s : Lexer) : Option Lexer :=
  (pending? s.mode).map fun tokens => ⟨.idle, s.depth, s.tokens ++ tokens⟩

/-- Whether a character opens a bracket. -/
def isOpening (c : Char) : Bool :=
  c == '(' || c == '[' || c == '\x7b'

/-- Whether a character closes a bracket. -/
def isClosing (c : Char) : Bool :=
  c == ')' || c == ']' || c == '\x7d'

/-- Whether a character is another mark. -/
def isMark (c : Char) : Bool :=
  c == '.' || c == ',' || c == '=' || c == '-'

/-- Reads a character that begins something. -/
def begin (c : Char) (s : Lexer) : Option Lexer :=
  if c = ' ' then some s
  else if c = '\n' then if s.depth = 0 then none else some s
  else if c = '"' then some ⟨.string [], s.depth, s.tokens⟩
  else if c.isDigit then some ⟨.numeral [c], s.depth, s.tokens⟩
  else if isNameChar c then some ⟨.word [c], s.depth, s.tokens⟩
  else if isOpening c then some ⟨.idle, s.depth + 1, s.tokens ++ [.symbol c]⟩
  else if isClosing c then
    if s.depth = 0 then none else some ⟨.idle, s.depth - 1, s.tokens ++ [.symbol c]⟩
  else if isMark c then some ⟨.idle, s.depth, s.tokens ++ [.symbol c]⟩
  else none

/-- The character that an escape stands for. -/
def unescape? : Char → Option Char
  | '\\' => some '\\'
  | '"' => some '"'
  | 'n' => some '\n'
  | 'r' => some '\r'
  | 't' => some '\t'
  | _ => none

/-- Reads a character. -/
def step (s : Lexer) (c : Char) : Option Lexer :=
  match s.mode with
  | .idle => begin c s
  | .word cs =>
    if isNameChar c then some ⟨.word (cs ++ [c]), s.depth, s.tokens⟩
    else s.settle.bind (begin c)
  | .numeral cs =>
    if isNameChar c || c == '.' then some ⟨.numeral (cs ++ [c]), s.depth, s.tokens⟩
    else s.settle.bind (begin c)
  | .string content =>
    if c = '"' then some ⟨.idle, s.depth, s.tokens ++ [.text (String.ofList content)]⟩
    else if c = '\\' then some ⟨.escaped content, s.depth, s.tokens⟩
    else if c = '\n' ∨ c = '\r' ∨ c = '\t' then none
    else some ⟨.string (content ++ [c]), s.depth, s.tokens⟩
  | .escaped content =>
    (unescape? c).map fun d => ⟨.string (content ++ [d]), s.depth, s.tokens⟩

/-- Reads a text. -/
def run (s : Lexer) (cs : List Char) : Option Lexer :=
  cs.foldlM step s

/-- The tokens of a text, if it can be cut into tokens and closes its
    brackets. -/
def tokens? (code : String) : Option (List Token) :=
  match (run ⟨.idle, 0, []⟩ code.toList).bind settle with
  | some ⟨_, 0, tokens⟩ => some tokens
  | _ => none

theorem run_cons (s : Lexer) (c : Char) (cs : List Char) :
    s.run (c :: cs) = (s.step c).bind fun t => t.run cs :=
  rfl

theorem run_append (s : Lexer) (cs ds : List Char) :
    s.run (cs ++ ds) = (s.run cs).bind fun t => t.run ds := by
  simp only [run, List.foldlM_append]
  rfl

/-! ## Surroundings -/

/-- The lexer behind other tokens, between more brackets. -/
def behind (s : Lexer) (depth : Nat) (front : List Token) : Lexer :=
  ⟨s.mode, s.depth + depth, front ++ s.tokens⟩

variable {s t : Lexer} {c : Char} {depth : Nat} {front : List Token}

theorem settle_behind (h : s.settle = some t) :
    (s.behind depth front).settle = some (t.behind depth front) := by
  obtain ⟨tokens, hpending, rfl⟩ := Option.map_eq_some_iff.mp h
  rw [settle, behind, hpending]
  simp [behind]

theorem begin_behind (h : begin c s = some t) :
    begin c (s.behind depth front) = some (t.behind depth front) := by
  unfold begin at h ⊢
  grind [behind]

theorem step_behind (h : s.step c = some t) :
    (s.behind depth front).step c = some (t.behind depth front) := by
  have hrest : s.settle.bind (begin c) = some t →
      (s.behind depth front).settle.bind (begin c) = some (t.behind depth front) := by
    intro h
    obtain ⟨mid, hsettle, hbegin⟩ := Option.bind_eq_some_iff.mp h
    rw [settle_behind hsettle]
    exact begin_behind hbegin
  have hmode : (s.behind depth front).mode = s.mode := rfl
  unfold step at h ⊢
  rw [hmode]
  cases hs : s.mode with
  | idle =>
    rw [hs] at h
    exact begin_behind h
  | word cs =>
    rw [hs] at h
    dsimp only at h ⊢
    split at h
    · next hc => cases h; rw [if_pos hc]; rfl
    · next hc => rw [if_neg hc]; exact hrest h
  | numeral cs =>
    rw [hs] at h
    dsimp only at h ⊢
    split at h
    · next hc => cases h; rw [if_pos hc]; rfl
    · next hc => rw [if_neg hc]; exact hrest h
  | string content =>
    rw [hs] at h
    grind [behind]
  | escaped content =>
    rw [hs] at h
    obtain ⟨d, hd, rfl⟩ := Option.map_eq_some_iff.mp h
    show (unescape? c).map _ = _
    rw [hd]
    rfl

theorem run_behind {cs : List Char} (h : s.run cs = some t) (depth : Nat) (front : List Token) :
    (s.behind depth front).run cs = some (t.behind depth front) := by
  induction cs generalizing s with
  | nil => cases h; rfl
  | cons c cs ih =>
    rw [run_cons, Option.bind_eq_some_iff] at h ⊢
    obtain ⟨mid, hstep, hrest⟩ := h
    exact ⟨mid.behind depth front, step_behind hstep, ih hrest⟩

/-- Where nothing runs together, a character is read as if what comes before it
    were finished. -/
theorem step_of_settle (h : s.settle = some t) (hname : isNameChar c = false)
    (hpoint : c ≠ '.' ∨ ∀ cs, s.mode ≠ .numeral cs) : s.step c = t.step c := by
  have hidle : t.mode = .idle := by
    obtain ⟨tokens, -, rfl⟩ := Option.map_eq_some_iff.mp h
    rfl
  have ht : t.step c = begin c t := by
    unfold step
    rw [hidle]
  rw [ht]
  unfold step
  cases hs : s.mode with
  | idle =>
    have heq : s = t := by
      obtain ⟨tokens, htokens, rfl⟩ := Option.map_eq_some_iff.mp h
      rw [hs] at htokens
      cases htokens
      obtain ⟨mode, depth, tokens⟩ := s
      cases hs
      simp
    rw [heq]
  | word cs =>
    dsimp only
    rw [hname, h]
    rfl
  | numeral cs =>
    have hc : c ≠ '.' := hpoint.resolve_right fun hnot => hnot cs hs
    dsimp only
    rw [hname, beq_false_of_ne hc, h]
    rfl
  | string content => simp [settle, hs, pending?] at h
  | escaped content => simp [settle, hs, pending?] at h

end Lexer

/-! ## Code and its tokens -/

/-- Between `before` open brackets the code is cut into the tokens, and behind it
    `after` brackets are open. Nothing is left unfinished. -/
def Lexes (before after : Nat) (code : String) (tokens : List Token) : Prop :=
  Lexer.run ⟨.idle, before, []⟩ code.toList = some ⟨.idle, after, tokens⟩

/-- The same for code whose last word or number may be finished only by what
    follows. -/
def Spells (before after : Nat) (code : String) (tokens : List Token) : Prop :=
  (Lexer.run ⟨.idle, before, []⟩ code.toList).bind Lexer.settle = some ⟨.idle, after, tokens⟩

instance (before after : Nat) (code : String) (tokens : List Token) :
    Decidable (Lexes before after code tokens) :=
  inferInstanceAs (Decidable (_ = _))

instance (before after : Nat) (code : String) (tokens : List Token) :
    Decidable (Spells before after code tokens) :=
  inferInstanceAs (Decidable (_ = _))

/-- The code does not end in a number, so a point behind it is a mark. -/
def EndsApart (code : String) : Prop :=
  ∀ s, Lexer.run ⟨.idle, 0, []⟩ code.toList = some s → ∀ cs, s.mode ≠ .numeral cs

/-- The code begins with a character that no word goes on with. -/
def startsApart (code : String) : Bool :=
  match code.toList with
  | c :: _ => !isNameChar c
  | [] => false

/-- The code begins with a point. -/
def startsWithPoint (code : String) : Bool :=
  code.toList.head? == some '.'

variable {before mid after : Nat} {code more : String} {ts us : List Token}

theorem Lexes.spells (h : Lexes before after code ts) : Spells before after code ts := by
  unfold Spells
  rw [show Lexer.run ⟨.idle, before, []⟩ code.toList = _ from h]
  simp [Lexer.settle, Lexer.pending?]

theorem Lexes.frame (h : Lexes before after code ts) (depth : Nat) (front : List Token) :
    Lexer.run ⟨.idle, before + depth, front⟩ code.toList =
      some ⟨.idle, after + depth, front ++ ts⟩ := by
  have hrun := Lexer.run_behind h depth front
  rwa [Lexer.behind, List.append_nil] at hrun

theorem Lexes.append (h : Lexes before mid code ts) (hmore : Lexes mid after more us) :
    Lexes before after (code ++ more) (ts ++ us) := by
  unfold Lexes
  rw [String.toList_append, Lexer.run_append, h]
  exact hmore.frame 0 ts

theorem Spells.frame (h : Spells before after code ts) (depth : Nat) (front : List Token) :
    (Lexer.run ⟨.idle, before + depth, front⟩ code.toList).bind Lexer.settle =
      some ⟨.idle, after + depth, front ++ ts⟩ := by
  obtain ⟨s, hrun, hsettle⟩ := Option.bind_eq_some_iff.mp h
  have hbehind := Lexer.run_behind hrun depth front
  rw [Lexer.behind, List.append_nil] at hbehind
  rw [hbehind]
  exact Lexer.settle_behind hsettle

theorem Spells.deeper (h : Spells before after code ts) (depth : Nat) :
    Spells (before + depth) (after + depth) code ts :=
  h.frame depth []

theorem Lexes.appendSpells (h : Lexes before mid code ts) (hmore : Spells mid after more us) :
    Spells before after (code ++ more) (ts ++ us) := by
  unfold Spells
  rw [String.toList_append, Lexer.run_append, h]
  exact hmore.frame 0 ts

/-- Code may follow where no word or number runs on into it. -/
theorem Spells.append (h : Spells before mid code ts) (hmore : Lexes mid after more us)
    (hstart : startsApart more = true)
    (hpoint : startsWithPoint more = false ∨ (before = 0 ∧ EndsApart code)) :
    Lexes before after (code ++ more) (ts ++ us) := by
  obtain ⟨s, hrun, hsettle⟩ := Option.bind_eq_some_iff.mp h
  have hmore' := hmore.frame 0 ts
  unfold startsApart at hstart
  unfold startsWithPoint at hpoint
  unfold Lexes
  rw [String.toList_append, Lexer.run_append, hrun, Option.bind_some]
  cases hchars : more.toList with
  | nil => rw [hchars] at hstart; cases hstart
  | cons c cs =>
    rw [hchars] at hstart hpoint hmore'
    have hc : c ≠ '.' ∨ ∀ cs, s.mode ≠ .numeral cs := by
      rcases hpoint with hpoint | ⟨rfl, hends⟩
      · exact .inl fun heq => by simp [heq] at hpoint
      · exact .inr (hends s hrun)
    rw [Lexer.run_cons, Lexer.step_of_settle hsettle (by simpa using hstart) hc]
    exact hmore'

/-! ## Strings -/

namespace Lexer

/-- What stands for a character inside a literal is read as the character. -/
theorem run_quoteChar (content : List Char) (depth : Nat) (tokens : List Token) (c : Char) :
    run ⟨.string content, depth, tokens⟩ (quoteChar c) =
      some ⟨.string (content ++ [c]), depth, tokens⟩ := by
  unfold quoteChar
  split
  · rfl
  · rfl
  · rfl
  · rfl
  · rfl
  · next hbackslash hquote hfeed hreturn htab =>
    have hend : ¬(c = '\n' ∨ c = '\r' ∨ c = '\t') := by
      rintro (h | h | h)
      · exact hfeed h
      · exact hreturn h
      · exact htab h
    show (step ⟨.string content, depth, tokens⟩ c).bind _ = _
    simp only [step, if_neg hquote, if_neg hbackslash, if_neg hend]
    rfl

theorem run_quoteChars (content : List Char) (depth : Nat) (tokens : List Token)
    (cs : List Char) :
    run ⟨.string content, depth, tokens⟩ (quoteChars cs) =
      some ⟨.string (content ++ cs), depth, tokens⟩ := by
  induction cs generalizing content with
  | nil => rw [List.append_nil]; rfl
  | cons c cs ih =>
    rw [quoteChars, List.flatMap_cons, run_append, run_quoteChar, Option.bind_some]
    rw [← quoteChars, ih, List.append_assoc, List.singleton_append]

end Lexer

/-- The literal of a text is the token of the text. -/
theorem lexes_quote (text : String) : Lexes 0 0 (quote text) [.text text] := by
  unfold Lexes
  rw [quote, String.toList_ofList, List.append_assoc, List.singleton_append, Lexer.run_cons]
  show Lexer.run ⟨.string [], 0, []⟩ (quoteChars text.toList ++ ['"']) = _
  rw [Lexer.run_append, Lexer.run_quoteChars]
  show some (Lexer.mk .idle 0 [.text (String.ofList text.toList)]) = _
  rw [String.ofList_toList]

/-! ## Names -/

namespace Lexer

theorem run_word {cs : List Char} (h : ∀ c ∈ cs, isNameChar c = true) (read : List Char)
    (depth : Nat) (tokens : List Token) :
    run ⟨.word read, depth, tokens⟩ cs = some ⟨.word (read ++ cs), depth, tokens⟩ := by
  induction cs generalizing read with
  | nil => rw [List.append_nil]; rfl
  | cons c cs ih =>
    rw [List.forall_mem_cons] at h
    have hstep :
        step ⟨.word read, depth, tokens⟩ c = some ⟨.word (read ++ [c]), depth, tokens⟩ := by
      simp only [step, h.1, if_true]
    rw [run_cons, hstep, Option.bind_some, ih h.2, List.append_assoc, List.singleton_append]

/-- A name character that is no digit begins a word. -/
theorem begin_word {c : Char} (hname : isNameChar c = true) (hdigit : c.isDigit = false)
    (s : Lexer) : begin c s = some ⟨.word [c], s.depth, s.tokens⟩ := by
  have hspace : c ≠ ' ' := by rintro rfl; cases hname
  have hfeed : c ≠ '\n' := by rintro rfl; cases hname
  have hquote : c ≠ '"' := by rintro rfl; cases hname
  simp only [begin, if_neg hspace, if_neg hfeed, if_neg hquote, hdigit, hname]
  rfl

end Lexer

/-- Name characters of which the first is no digit are a word. -/
theorem run_name {name : String} (hchars : ∀ c ∈ name.toList, isNameChar c = true)
    (hstart : startsBadly name.toList = false) :
    Lexer.run ⟨.idle, 0, []⟩ name.toList = some ⟨.word name.toList, 0, []⟩ := by
  cases hname : name.toList with
  | nil => rw [hname] at hstart; cases hstart
  | cons c cs =>
    rw [hname, List.forall_mem_cons] at hchars
    rw [hname] at hstart
    have hstep : Lexer.step ⟨.idle, 0, []⟩ c = some ⟨.word [c], 0, []⟩ :=
      Lexer.begin_word hchars.1 hstart _
    rw [Lexer.run_cons, hstep, Option.bind_some, Lexer.run_word hchars.2]
    rfl

/-- The name of a variable is a name. -/
theorem spells_identifier (text : String) :
    Spells 0 0 (identifier text) [.name (identifier text)] := by
  obtain ⟨hchars, hstart, hkeyword⟩ := identifier_isName text
  have hword : Lexer.wordToken (identifier text).toList = .name (identifier text) := by
    rw [Lexer.wordToken, String.ofList_toList, if_neg]
    exact fun hmem => hkeyword (List.contains_iff_mem.mp hmem)
  unfold Spells
  rw [run_name hchars hstart, Option.bind_some]
  show some (Lexer.mk .idle 0 ([] ++ [Lexer.wordToken (identifier text).toList])) = _
  rw [hword]
  rfl

theorem endsApart_identifier (text : String) : EndsApart (identifier text) := by
  obtain ⟨hchars, hstart, -⟩ := identifier_isName text
  intro s hrun cs hmode
  rw [run_name hchars hstart] at hrun
  cases hrun
  cases hmode

/-! ## Numbers -/

namespace Lexer

theorem run_numeral {cs : List Char} (h : ∀ c ∈ cs, c.isDigit = true ∨ c = '.')
    (read : List Char) (depth : Nat) (tokens : List Token) :
    run ⟨.numeral read, depth, tokens⟩ cs = some ⟨.numeral (read ++ cs), depth, tokens⟩ := by
  induction cs generalizing read with
  | nil => rw [List.append_nil]; rfl
  | cons c cs ih =>
    rw [List.forall_mem_cons] at h
    have hstep : step ⟨.numeral read, depth, tokens⟩ c =
        some ⟨.numeral (read ++ [c]), depth, tokens⟩ := by
      rcases h.1 with hdigit | rfl
      · have hname : isNameChar c = true := by simp [isNameChar, Char.isAlphanum, hdigit]
        simp only [step, hname, Bool.true_or, if_true]
      · rfl
    rw [run_cons, hstep, Option.bind_some, ih h.2, List.append_assoc, List.singleton_append]

/-- A digit begins a number. -/
theorem begin_numeral {c : Char} (hdigit : c.isDigit = true) (s : Lexer) :
    begin c s = some ⟨.numeral [c], s.depth, s.tokens⟩ := by
  have hspace : c ≠ ' ' := by rintro rfl; cases hdigit
  have hfeed : c ≠ '\n' := by rintro rfl; cases hdigit
  have hquote : c ≠ '"' := by rintro rfl; cases hdigit
  simp only [begin, if_neg hspace, if_neg hfeed, if_neg hquote, hdigit]
  rfl

end Lexer

/-- A numeral begins with a digit. -/
theorem exists_digit_of_isNumeral {cs : List Char} (h : isNumeral cs = true) :
    ∃ d ds, cs = d :: ds ∧ d.isDigit = true := by
  cases cs with
  | nil => cases h
  | cons d ds =>
    refine ⟨d, ds, rfl, ?_⟩
    cases hd : d.isDigit with
    | true => rfl
    | false => simp [isNumeral, hd, isDigits] at h

/-- A numeral is a number. -/
theorem spells_numeral {cs : List Char} (h : isNumeral cs = true) :
    Spells 0 0 (String.ofList cs) [.number (String.ofList cs)] := by
  obtain ⟨d, ds, rfl, hdigit⟩ := exists_digit_of_isNumeral h
  have hrest : ∀ c ∈ ds, c.isDigit = true ∨ c = '.' := fun c hc =>
    mem_of_isNumeral h (List.mem_cons_of_mem _ hc)
  have hstep : Lexer.step ⟨.idle, 0, []⟩ d = some ⟨.numeral [d], 0, []⟩ :=
    Lexer.begin_numeral hdigit _
  unfold Spells
  rw [String.toList_ofList, Lexer.run_cons, hstep, Option.bind_some, Lexer.run_numeral hrest,
    Option.bind_some]
  show (Lexer.pending? (.numeral (d :: ds))).map _ = _
  rw [Lexer.pending?, if_pos h]
  rfl

end PollScript
