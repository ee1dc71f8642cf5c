import Mathlib.Data.List.Forall2
import PollScript.Emitters
import PollScript.Proofs.Lexer
import PollScript.Proofs.Meaning

/-!
# Code that denotes an expression

Code denotes an expression if its tokens derive it. The code of a call is put
together from the code of its arguments, on one line or on several, and denotes
the call of what the arguments denote.

Results:

* `parses_iff`: code that denotes an expression parses to it and to nothing else.
* `denotes_number`: the literal of a finite number denotes its value.
* `closes_call`, `closes_callWithKeywords`: the code of a call denotes the call.
-/

namespace PollScript

open Script

/-- The code is read as the expression, which holds together as the level says. -/
def Denotes (level : Level) (code : String) (e : Expr) : Prop :=
  ∃ ts, Spells 0 0 code ts ∧ Derives level ts e

/-- The same for code that leaves no word or number unfinished. -/
def Closes (level : Level) (code : String) (e : Expr) : Prop :=
  ∃ ts, Lexes 0 0 code ts ∧ Derives level ts e

/-- The whole code can be cut into tokens that are those of the expression. -/
def Parses (code : String) (e : Expr) : Prop :=
  ∃ ts, Lexer.tokens? code = some ts ∧ Derives .expression ts e

variable {level : Level} {code : String} {e : Expr} {ts : List Token}

theorem Denotes.ofLevel (h : Denotes level code e) : Denotes .expression code e := by
  obtain ⟨ts, hspells, hderives⟩ := h
  exact ⟨ts, hspells, hderives.ofLevel⟩

theorem Closes.denotes (h : Closes level code e) : Denotes level code e := by
  obtain ⟨ts, hlexes, hderives⟩ := h
  exact ⟨ts, hlexes.spells, hderives⟩

theorem Lexes.endsApart (h : Lexes 0 0 code ts) : EndsApart code := by
  intro s hrun cs hmode
  rw [show Lexer.run ⟨.idle, 0, []⟩ code.toList = _ from h] at hrun
  cases hrun
  cases hmode

theorem Closes.endsApart (h : Closes level code e) : EndsApart code := by
  obtain ⟨ts, hlexes, -⟩ := h
  exact hlexes.endsApart

theorem Spells.tokens? (h : Spells 0 0 code ts) : Lexer.tokens? code = some ts := by
  unfold Lexer.tokens?
  rw [show (Lexer.run ⟨.idle, 0, []⟩ code.toList).bind Lexer.settle = _ from h]
  rfl

/-- Code that denotes an expression parses to it and to nothing else. -/
theorem parses_iff (h : Denotes level code e) (e' : Expr) : Parses code e' ↔ e' = e := by
  obtain ⟨ts, hspells, hderives⟩ := h.ofLevel
  constructor
  · rintro ⟨ts', htokens, hderives'⟩
    rw [hspells.tokens?] at htokens
    cases htokens
    exact derives_unique hderives' hderives
  · rintro rfl
    exact ⟨ts, hspells.tokens?, hderives⟩

/-- No expression is empty. -/
theorem Derives.ne_nil (h : Derives level ts e) : ts ≠ [] := by
  induction h with
  | name | none | number | text | emptyDict | emptyList => exact List.cons_ne_nil _ _
  | parens | member | subscript | call => simp
  | await | negate => exact List.cons_ne_nil _ _
  | ofPrimary tight ih => exact ih
  | ofAwaited unsigned ih => exact ih

theorem Denotes.ne_empty (h : Denotes level code e) : code ≠ "" := by
  obtain ⟨ts, hspells, hderives⟩ := h
  rintro rfl
  have hnil : Spells 0 0 "" [] := rfl
  have heq := hspells.symm.trans hnil
  cases heq
  exact hderives.ne_nil rfl

/-! ## Code in brackets -/

theorem lexes_spaces (h : ∀ c ∈ code.toList, c = ' ') (depth : Nat) :
    Lexes depth depth code [] := by
  unfold Lexes
  generalize code.toList = cs at h ⊢
  induction cs with
  | nil => rfl
  | cons c cs ih =>
    rw [List.forall_mem_cons] at h
    obtain ⟨rfl, hcs⟩ := h
    exact ih hcs

/-- Code between brackets closes what the first of them opens. -/
theorem Spells.enclosed {front back : String} {tf tb : List Token} (h : Spells 1 1 code ts)
    (hfront : Lexes 0 1 front tf) (hback : Lexes 1 0 back tb) (hstart : startsApart back = true)
    (hpoint : startsWithPoint back = false) :
    Lexes 0 0 (front ++ code ++ back) (tf ++ ts ++ tb) :=
  Spells.append (hfront.appendSpells h) hback hstart (.inl hpoint)

/-- An expression in parentheses closes. -/
theorem Denotes.parens (h : Denotes level code e) : Closes .primary ("(" ++ code ++ ")") e := by
  obtain ⟨ts, hspells, hderives⟩ := h.ofLevel
  exact ⟨_, (hspells.deeper 1).enclosed (by decide) (by decide) (by decide) (by decide),
    .parens hderives⟩

/-! ## Literals and names -/

theorem denotes_quote (text : String) : Closes .primary (quote text) (.text text) :=
  ⟨_, lexes_quote text, .text text⟩

theorem denotes_identifier (text : String) :
    Denotes .primary (identifier text) (.name (identifier text)) :=
  ⟨_, spells_identifier text, .name _⟩

/-- A numeral behind a sign denotes the number with the sign. -/
theorem denotes_signed {body : List Char} (h : isNumeral body = true)
    (sign : Float.Model.UnpackedFloat.Sign) :
    Denotes .expression (String.ofList (Decimal.signText sign ++ body))
      (.signed sign (.number (String.ofList body))) := by
  have hnumber := spells_numeral h
  cases sign with
  | negative =>
    have hsign : Lexes 0 0 "-" [.symbol '-'] := by decide
    refine ⟨_, ?_, .negate (Derives.ofLevel (.number _))⟩
    rw [String.ofList_append]
    exact hsign.appendSpells hnumber
  | positive => exact ⟨_, hnumber, Derives.ofLevel (.number _)⟩

/-- The literal of a finite number denotes it: it is written as it is displayed, except that zero
    has no sign. -/
theorem denotes_number {x : Float} (h : x.isFinite = true) :
    ∃ e, Expr.ofNumber? x = some e ∧ Denotes .expression (number x) e := by
  have hunpack : x.toModel.unpack.isFinite = true := h
  rw [Expr.ofNumber?, number]
  cases hx : x.toModel.unpack with
  | notANumber => rw [hx] at hunpack; cases hunpack
  | infinity sign => rw [hx] at hunpack; cases hunpack
  | zero sign => exact ⟨_, rfl, denotes_signed (show isNumeral ['0'] = true by decide) .positive⟩
  | finite sign m e positive =>
    have hchars : numberChars (.finite sign m e positive) =
        Decimal.signText sign ++ (Decimal.shortest .up m e).positional [] := by
      refine numberChars_eq_chars (fun sign' m' e' positive' heq => ?_) fun heq => ?_
      · rw [← hx] at heq
        exact Decimal.canonical_of_unpack heq
      · cases heq
    refine ⟨_, rfl, ?_⟩
    rw [hchars]
    exact denotes_signed
      (Decimal.isNumeral_positional (Decimal.proper_shortest positive .up e)) sign

/-! ## Arguments -/

/-- The code is that of an argument between the brackets of a call. -/
structure Argues (code : String) (a : Argument) : Prop where
  spells : Spells 1 1 code a.text
  derives : Derives .expression a.tokens a.value

/-- Arguments with separators between them are cut into their tokens with commas
    between them. -/
theorem spells_arguments {separator : String} (hseparator : Lexes 1 1 separator [.symbol ','])
    (hstart : startsApart separator = true) (hpoint : startsWithPoint separator = false)
    {codes : List String} {arguments : List Argument} (h : List.Forall₂ Argues codes arguments) :
    Spells 1 1 (separator.intercalate codes) (Argument.texts arguments) := by
  induction h with
  | nil => exact rfl
  | @cons code a codes arguments hfirst hrest ih =>
    cases hrest with
    | nil =>
      rw [String.intercalate_singleton]
      show Spells 1 1 code ([Token.symbol ','].intercalate [a.text])
      rw [List.intercalate_singleton]
      exact hfirst.spells
    | cons hsecond hrest =>
      rw [String.intercalate_cons_cons]
      show Spells 1 1 _ ([Token.symbol ','].intercalate (a.text :: _ :: _))
      rw [List.intercalate_cons_cons]
      exact (Spells.append hfirst.spells hseparator hstart (.inl hpoint)).appendSpells ih

theorem derives_of_argues {codes : List String} {arguments : List Argument}
    (h : List.Forall₂ Argues codes arguments) :
    ∀ a ∈ arguments, Derives .expression a.tokens a.value := by
  induction h with
  | nil => exact fun a ha => nomatch ha
  | cons hfirst _ ih => exact List.forall_mem_cons.mpr ⟨hfirst.derives, ih⟩

/-- Values without names are the arguments of a call. -/
theorem exists_positional {codes : List String} {values : List Expr}
    (h : List.Forall₂ (Denotes .expression) codes values) :
    ∃ arguments, List.Forall₂ Argues codes arguments ∧ Argument.Ordered arguments ∧
      Argument.positional arguments = values ∧ Argument.named arguments = [] := by
  have hexists : ∃ arguments : List Argument, List.Forall₂ Argues codes arguments ∧
      (∀ a ∈ arguments, a.name = none) ∧ arguments.map (·.value) = values := by
    induction h with
    | nil => exact ⟨[], .nil, fun _ ha => (nomatch ha), rfl⟩
    | @cons code value codes values hfirst _ ih =>
      obtain ⟨arguments, hargues, hnames, rfl⟩ := ih
      obtain ⟨ts, hspells, hderives⟩ := hfirst
      exact ⟨⟨none, ts, value⟩ :: arguments, .cons ⟨hspells.deeper 1, hderives⟩ hargues,
        List.forall_mem_cons.mpr ⟨rfl, hnames⟩, rfl⟩
  obtain ⟨arguments, hargues, hnames, rfl⟩ := hexists
  refine ⟨arguments, hargues, ?_, ?_, ?_⟩
  · refine List.pairwise_of_forall_mem_list fun a ha b _ hname => ?_
    rw [hnames a ha] at hname
    cases hname
  · rw [Argument.positional, ← List.filterMap_eq_map]
    refine List.filterMap_congr fun a ha => ?_
    simp [hnames a ha]
  · rw [Argument.named, List.filterMap_eq_nil_iff]
    intro a ha
    rw [hnames a ha]
    rfl

/-- A name with code behind it, as an argument of a call. -/
structure Names (argument : String × String) (value : String × Expr) : Prop where
  name : argument.1 = value.1
  spells : Spells 0 0 value.1 [.name value.1]
  denotes : Denotes .expression argument.2 value.2

theorem Denotes.names {name : String} (h : Denotes .expression code e)
    (hname : Spells 0 0 name [.name name]) : Names (name, code) (name, e) :=
  ⟨rfl, hname, h⟩

/-- Values with names are the arguments of a call, each on a line of its own. -/
theorem exists_named {indent : String} (hindent : ∀ c ∈ indent.toList, c = ' ')
    {written : List (String × String)} {values : List (String × Expr)}
    (h : List.Forall₂ Names written values) :
    ∃ arguments, List.Forall₂ Argues
        (written.map fun argument => indent ++ argument.1 ++ "=" ++ argument.2) arguments ∧
      Argument.Ordered arguments ∧
      Argument.positional arguments = [] ∧ Argument.named arguments = values := by
  have hexists : ∃ arguments : List Argument, List.Forall₂ Argues
        (written.map fun argument => indent ++ argument.1 ++ "=" ++ argument.2) arguments ∧
      (∀ a ∈ arguments, a.name.isSome = true) ∧ Argument.named arguments = values := by
    induction h with
    | nil => exact ⟨[], .nil, fun _ ha => (nomatch ha), rfl⟩
    | @cons argument value written values hfirst _ ih =>
      obtain ⟨arguments, hargues, hnames, rfl⟩ := ih
      obtain ⟨argumentName, argumentCode⟩ := argument
      obtain ⟨name, value⟩ := value
      obtain ⟨rfl, hname, ts, hspells, hderives⟩ := hfirst
      have hequals : Lexes 0 0 "=" [.symbol '='] := by decide
      have hhead := ((lexes_spaces hindent 0).appendSpells hname).append hequals (by decide)
        (.inl (by decide))
      refine ⟨⟨some _, ts, value⟩ :: arguments, .cons ⟨?_, hderives⟩ hargues,
        List.forall_mem_cons.mpr ⟨rfl, hnames⟩, rfl⟩
      exact (hhead.appendSpells hspells).deeper 1
  obtain ⟨arguments, hargues, hnames, rfl⟩ := hexists
  refine ⟨arguments, hargues, ?_, ?_, rfl⟩
  · exact List.pairwise_of_forall_mem_list fun a _ b hb _ => hnames b hb
  · rw [Argument.positional, List.filterMap_eq_nil_iff]
    intro a ha
    obtain ⟨name, hname⟩ := Option.isSome_iff_exists.mp (hnames a ha)
    rw [hname]
    rfl

/-! ## Expressions made of others -/

/-- The code of a call denotes the call, whatever the separators are. -/
theorem closes_call {front separator back : String} {tf : List Token} {f : Expr}
    (hfront : Lexes 0 1 front (tf ++ [.symbol '('])) (hcallee : Derives .primary tf f)
    (hseparator : Lexes 1 1 separator [.symbol ',']) (hback : Lexes 1 0 back [.symbol ')'])
    (happart : startsApart separator = true ∧ startsWithPoint separator = false ∧
      startsApart back = true ∧ startsWithPoint back = false)
    {codes : List String} {arguments : List Argument} (h : List.Forall₂ Argues codes arguments)
    (hordered : Argument.Ordered arguments) :
    Closes .primary (front ++ separator.intercalate codes ++ back)
      (.call f (Argument.positional arguments) (Argument.named arguments)) := by
  obtain ⟨hseparates, hunpointed, hends, hplain⟩ := happart
  have hspells := spells_arguments hseparator hseparates hunpointed h
  exact ⟨_, hspells.enclosed hfront hback hends hplain,
    .call hcallee (derives_of_argues h) hordered⟩

/-- The code of a call with positional arguments. -/
theorem closes_positional {front : String} {tf : List Token} {f : Expr}
    (hfront : Lexes 0 1 front (tf ++ [.symbol '('])) (hcallee : Derives .primary tf f)
    {codes : List String} {values : List Expr}
    (h : List.Forall₂ (Denotes .expression) codes values) :
    Closes .primary (front ++ ", ".intercalate codes ++ ")") (.call f values []) := by
  obtain ⟨arguments, hargues, hordered, hpositional, hnamed⟩ := exists_positional h
  have hcloses : Closes .primary (front ++ ", ".intercalate codes ++ ")") _ :=
    closes_call hfront hcallee (by decide) (by decide) (by decide) hargues hordered
  rwa [hpositional, hnamed] at hcloses

/-- The code of a call with an argument on each line. -/
theorem closes_callWithKeywords {callee indent : String}
    (hcallee : Spells 0 0 callee [.name callee]) (hindent : ∀ c ∈ indent.toList, c = ' ')
    {written : List (String × String)} {values : List (String × Expr)}
    (h : List.Forall₂ Names written values) :
    Closes .primary (Emitters.callWithKeywords callee written indent)
      (.call (.name callee) [] values) := by
  obtain ⟨arguments, hargues, hordered, hpositional, hnamed⟩ := exists_named hindent h
  have hbracket : Lexes 0 1 "(\n" [.symbol '('] := by decide
  have hfront := hcallee.append hbracket (by decide) (.inl (by decide))
  have hcloses := closes_call hfront (.name callee)
    (show Lexes 1 1 ",\n" [.symbol ','] by decide) (show Lexes 1 0 "\n)" [.symbol ')'] by decide)
    (by decide) hargues hordered
  rwa [hpositional, hnamed] at hcloses

/-- The code of a look-up in an object. -/
theorem closes_get {data : String} {d : Expr} (h : Denotes .primary data d)
    (hends : EndsApart data) {codes : List String} {values : List Expr}
    (hcodes : List.Forall₂ (Denotes .expression) codes values) :
    Closes .primary (data ++ ".get(" ++ ", ".intercalate codes ++ ")")
      (.call (.member d "get") values []) := by
  obtain ⟨ts, hspells, hderives⟩ := h
  have hget : Lexes 0 1 ".get(" [.symbol '.', .name "get", .symbol '('] := by decide
  have hfront := hspells.append hget (by decide) (.inr ⟨rfl, hends⟩)
  refine closes_positional ?_ (hderives.member "get") hcodes
  rwa [List.append_assoc]

/-- The code of an entry. -/
theorem Closes.subscript {index : String} {i : Expr} (h : Closes .primary code e)
    (hindex : Denotes .expression index i) :
    Closes .primary (code ++ "[" ++ index ++ "]") (.subscript e i) := by
  obtain ⟨ts, hlexes, hderives⟩ := h
  obtain ⟨us, hspells, hindex⟩ := hindex
  have hbracket : Lexes 0 1 "[" [.symbol '['] := by decide
  exact ⟨_, (hspells.deeper 1).enclosed (hlexes.append hbracket) (by decide) (by decide)
    (by decide), hderives.subscript hindex⟩

/-- The code of something that is awaited. -/
theorem Closes.await (h : Closes .primary code e) :
    Closes .awaited ("await " ++ code) (.await e) := by
  obtain ⟨ts, hlexes, hderives⟩ := h
  have hawait : Lexes 0 0 "await " [.keyword "await"] := by decide
  exact ⟨_, hawait.append hlexes, .await hderives⟩

end PollScript
