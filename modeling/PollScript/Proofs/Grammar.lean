/-!
# The grammar of emitted expressions

The part of the Python expression grammar that emitted code is written in:
names, numbers, strings, empty collections, parentheses, attributes,
subscripts, calls with positional and named arguments, `await` and a minus
sign. Attributes, subscripts and calls bind tightest, then `await`, then the
sign. Parentheses leave no trace in the tree.

The grammar has one tree for every text that it derives. A machine that reads a
text token by token ends with the tree of every derivation, so all derivations
of a text have the same tree.

Results:

* `run_of_derives`: reading a derived text leaves its tree.
* `derives_unique`: a text has at most one tree.
-/

namespace PollScript

/-! ## Trees and tokens -/

/-- An expression. -/
inductive Expr where
  | name (name : String)
  | none
  | number (text : String)
  | text (content : String)
  | emptyDict
  | emptyList
  | member (object : Expr) (name : String)
  | subscript (object index : Expr)
  | call (callee : Expr) (positional : List Expr) (named : List (String × Expr))
  | await (awaited : Expr)
  | negate (operand : Expr)

/-- A token. -/
inductive Token where
  | name (name : String)
  | keyword (word : String)
  | number (text : String)
  | text (content : String)
  | symbol (mark : Char)
deriving DecidableEq, Repr

/-! ## The grammar -/

/-- How tightly an expression holds together, tightest first. -/
inductive Level where
  | primary
  /-- What may follow a sign. -/
  | awaited
  | expression
deriving DecidableEq, Repr

/-- An argument of a call, with its tokens behind the name. -/
structure Argument where
  name : Option String
  tokens : List Token
  value : Expr

namespace Argument

/-- All tokens of an argument. -/
def text (a : Argument) : List Token :=
  match a.name with
  | some name => [.name name, .symbol '='] ++ a.tokens
  | none => a.tokens

/-- The tokens of arguments with commas between them. -/
def texts (arguments : List Argument) : List Token :=
  [Token.symbol ','].intercalate (arguments.map text)

/-- The values without a name. -/
def positional (arguments : List Argument) : List Expr :=
  arguments.filterMap fun a => if a.name.isNone then some a.value else none

/-- The values with a name. -/
def named (arguments : List Argument) : List (String × Expr) :=
  arguments.filterMap fun a => a.name.map (·, a.value)

/-- No argument without a name comes behind one with a name. -/
def Ordered (arguments : List Argument) : Prop :=
  arguments.Pairwise fun a b => a.name.isSome → b.name.isSome

end Argument

/-- The grammar: the tokens are those of an expression at a level. -/
inductive Derives : Level → List Token → Expr → Prop
  | name (n : String) : Derives .primary [.name n] (.name n)
  | none : Derives .primary [.keyword "None"] .none
  | number (text : String) : Derives .primary [.number text] (.number text)
  | text (content : String) : Derives .primary [.text content] (.text content)
  | emptyDict : Derives .primary [.symbol '\x7b', .symbol '\x7d'] .emptyDict
  | emptyList : Derives .primary [.symbol '[', .symbol ']'] .emptyList
  | parens {ts : List Token} {e : Expr} (inside : Derives .expression ts e) :
      Derives .primary ([.symbol '('] ++ ts ++ [.symbol ')']) e
  | member {ts : List Token} {e : Expr} (object : Derives .primary ts e) (n : String) :
      Derives .primary (ts ++ [.symbol '.', .name n]) (.member e n)
  | subscript {ts us : List Token} {e i : Expr} (object : Derives .primary ts e)
      (index : Derives .expression us i) :
      Derives .primary (ts ++ [.symbol '['] ++ us ++ [.symbol ']']) (.subscript e i)
  | call {ts : List Token} {f : Expr} {arguments : List Argument}
      (callee : Derives .primary ts f)
      (values : ∀ a ∈ arguments, Derives .expression a.tokens a.value)
      (ordered : Argument.Ordered arguments) :
      Derives .primary (ts ++ [.symbol '('] ++ Argument.texts arguments ++ [.symbol ')'])
        (.call f (Argument.positional arguments) (Argument.named arguments))
  | await {ts : List Token} {e : Expr} (awaited : Derives .primary ts e) :
      Derives .awaited ([.keyword "await"] ++ ts) (.await e)
  /-- A tight expression may stand for one that is awaited or not. -/
  | ofPrimary {ts : List Token} {e : Expr} (tight : Derives .primary ts e) :
      Derives .awaited ts e
  | negate {ts : List Token} {e : Expr} (operand : Derives .expression ts e) :
      Derives .expression ([.symbol '-'] ++ ts) (.negate e)
  | ofAwaited {ts : List Token} {e : Expr} (unsigned : Derives .awaited ts e) :
      Derives .expression ts e

theorem Derives.ofLevel {level : Level} {ts : List Token} {e : Expr} (h : Derives level ts e) :
    Derives .expression ts e := by
  cases level with
  | primary => exact .ofAwaited (.ofPrimary h)
  | awaited => exact .ofAwaited h
  | expression => exact h

/-! ## The machine -/

/-- What stands in front of an operand. -/
inductive Prefix where
  | await
  | negate

/-- Puts something in front of an operand. -/
def Prefix.apply : Prefix → Expr → Expr
  | .await, e => .await e
  | .negate, e => .negate e

/-- Puts things in front of an operand, the first of them next to it. -/
def wrap (prefixes : List Prefix) (e : Expr) : Expr :=
  prefixes.foldl (fun e p => p.apply e) e

/-- A bracket that is open, with what came before it. -/
inductive Frame where
  | parens (prefixes : List Prefix)
  | subscript (object : Expr) (prefixes : List Prefix)
  | call (callee : Expr) (positional : List Expr) (named : List (String × Expr))
      (prefixes : List Prefix)
  | argument (callee : Expr) (positional : List Expr) (named : List (String × Expr))
      (name : String) (prefixes : List Prefix)

/-- What the machine expects. -/
inductive Focus where
  | operand
  | listEnd
  | dictEnd
  | operator (e : Expr)
  | member (object : Expr)

/-- The state of the machine. -/
structure Machine where
  focus : Focus
  /-- What stands in front of the operand at hand, the nearest first. -/
  prefixes : List Prefix
  frames : List Frame

namespace Machine

/-- Reads the beginning of an operand. -/
def readOperand (prefixes : List Prefix) (frames : List Frame) : Token → Option Machine
  | .name n => some ⟨.operator (.name n), prefixes, frames⟩
  | .keyword "None" => some ⟨.operator .none, prefixes, frames⟩
  | .keyword "await" => some ⟨.operand, .await :: prefixes, frames⟩
  | .number text => some ⟨.operator (.number text), prefixes, frames⟩
  | .text content => some ⟨.operator (.text content), prefixes, frames⟩
  | .symbol '-' => some ⟨.operand, .negate :: prefixes, frames⟩
  | .symbol '(' => some ⟨.operand, [], .parens prefixes :: frames⟩
  | .symbol '[' => some ⟨.listEnd, prefixes, frames⟩
  | .symbol '\x7b' => some ⟨.dictEnd, prefixes, frames⟩
  | .symbol ')' =>
    match prefixes, frames with
    | [], .call f [] [] outer :: rest => some ⟨.operator (.call f [] []), outer, rest⟩
    | _, _ => none
  | _ => none

/-- Ends an argument of a call, or an expression in parentheses. -/
def close (e : Expr) : List Frame → Option Machine
  | .parens outer :: rest => some ⟨.operator e, outer, rest⟩
  | .call f positional named outer :: rest =>
    some ⟨.operator (.call f (positional ++ [e]) named), outer, rest⟩
  | .argument f positional named n outer :: rest =>
    some ⟨.operator (.call f positional (named ++ [(n, e)])), outer, rest⟩
  | _ => none

/-- Ends an argument behind which another one follows. -/
def separate (e : Expr) : List Frame → Option Machine
  | .call f positional named outer :: rest =>
    some ⟨.operand, [], .call f (positional ++ [e]) named outer :: rest⟩
  | .argument f positional named n outer :: rest =>
    some ⟨.operand, [], .call f positional (named ++ [(n, e)]) outer :: rest⟩
  | _ => none

/-- Reads what follows an operand. -/
def readOperator (e : Expr) (prefixes : List Prefix) (frames : List Frame) :
    Token → Option Machine
  | .symbol '.' => some ⟨.member e, prefixes, frames⟩
  | .symbol '(' => some ⟨.operand, [], .call e [] [] prefixes :: frames⟩
  | .symbol '[' => some ⟨.operand, [], .subscript e prefixes :: frames⟩
  | .symbol '=' =>
    match e, prefixes, frames with
    | .name n, [], .call f positional named outer :: rest =>
      some ⟨.operand, [], .argument f positional named n outer :: rest⟩
    | _, _, _ => none
  | .symbol ',' => separate (wrap prefixes e) frames
  | .symbol ')' => close (wrap prefixes e) frames
  | .symbol ']' =>
    match frames with
    | .subscript object outer :: rest =>
      some ⟨.operator (.subscript object (wrap prefixes e)), outer, rest⟩
    | _ => none
  | _ => none

/-- Reads a token. -/
def step : Machine → Token → Option Machine
  | ⟨.operand, prefixes, frames⟩, token => readOperand prefixes frames token
  | ⟨.operator e, prefixes, frames⟩, token => readOperator e prefixes frames token
  | ⟨.listEnd, prefixes, frames⟩, .symbol ']' => some ⟨.operator .emptyList, prefixes, frames⟩
  | ⟨.dictEnd, prefixes, frames⟩, .symbol '\x7d' =>
    some ⟨.operator .emptyDict, prefixes, frames⟩
  | ⟨.member e, prefixes, frames⟩, .name n =>
    some ⟨.operator (.member e n), prefixes, frames⟩
  | _, _ => none

/-- Reads tokens. -/
def run (m : Machine) (ts : List Token) : Option Machine :=
  ts.foldlM step m

/-- The tree that the machine has read, if nothing is left open. -/
def tree? : Machine → Option Expr
  | ⟨.operator e, prefixes, []⟩ => some (wrap prefixes e)
  | _ => none

theorem run_append (m : Machine) (ts us : List Token) :
    m.run (ts ++ us) = (m.run ts).bind fun n => n.run us := by
  simp only [run, List.foldlM_append]
  rfl

theorem run_cons (m : Machine) (t : Token) (ts : List Token) :
    m.run (t :: ts) = (m.step t).bind fun n => n.run ts :=
  rfl

/-! ## Reading a derived text -/

/-- From any place where an operand may stand, the machine reads the tokens to
    the end of the operand. What stood in front of it and what is open outside
    of it stay as they were. -/
def Reads (tight : Bool) (ts : List Token) (e : Expr) : Prop :=
  ∀ prefixes frames, ∃ inner core,
    run ⟨.operand, prefixes, frames⟩ ts = some ⟨.operator core, inner ++ prefixes, frames⟩ ∧
      wrap inner core = e ∧ (tight = true → inner = [])

theorem Reads.tight {ts : List Token} {e : Expr} (h : Reads true ts e)
    (prefixes : List Prefix) (frames : List Frame) :
    run ⟨.operand, prefixes, frames⟩ ts = some ⟨.operator e, prefixes, frames⟩ := by
  obtain ⟨inner, core, hrun, hwrap, hinner⟩ := h prefixes frames
  obtain rfl := hinner rfl
  cases hwrap
  exact hrun

theorem reads_of_run {ts : List Token} {e : Expr}
    (h : ∀ prefixes frames,
      run ⟨.operand, prefixes, frames⟩ ts = some ⟨.operator e, prefixes, frames⟩) :
    Reads true ts e :=
  fun prefixes frames => ⟨[], e, h prefixes frames, rfl, fun _ => rfl⟩

theorem Reads.loose {ts : List Token} {e : Expr} (h : Reads true ts e) : Reads false ts e := by
  intro prefixes frames
  exact ⟨[], e, h.tight prefixes frames, rfl, fun _ => rfl⟩

/-- An expression in brackets ends with what is in front of it applied. -/
theorem Reads.bracketed {ts : List Token} {e : Expr} (h : Reads false ts e)
    (frames : List Frame) :
    ∃ inner core, run ⟨.operand, [], frames⟩ ts = some ⟨.operator core, inner, frames⟩ ∧
      wrap inner core = e := by
  obtain ⟨inner, core, hrun, hwrap, -⟩ := h [] frames
  rw [List.append_nil] at hrun
  exact ⟨inner, core, hrun, hwrap⟩

theorem Reads.prefixed {ts : List Token} {e : Expr} {token : Token} {p : Prefix}
    (h : Reads false ts e)
    (hstep : ∀ prefixes frames,
      readOperand prefixes frames token = some ⟨.operand, p :: prefixes, frames⟩) :
    Reads false ([token] ++ ts) (p.apply e) := by
  intro prefixes frames
  obtain ⟨inner, core, hrun, hwrap, -⟩ := h (p :: prefixes) frames
  refine ⟨inner ++ [p], core, ?_, ?_, nofun⟩
  · rw [List.append_assoc, List.singleton_append, run_cons]
    show (readOperand prefixes frames token).bind _ = _
    rw [hstep]
    exact hrun
  · rw [wrap, List.foldl_append, ← hwrap]
    rfl

theorem Reads.parens {ts : List Token} {e : Expr} (h : Reads false ts e) :
    Reads true ([.symbol '('] ++ ts ++ [.symbol ')']) e := by
  refine reads_of_run fun prefixes frames => ?_
  obtain ⟨inner, core, hrun, rfl⟩ := h.bracketed (.parens prefixes :: frames)
  rw [List.append_assoc, List.singleton_append, run_cons]
  show run ⟨.operand, [], .parens prefixes :: frames⟩ (ts ++ [.symbol ')']) = _
  rw [run_append, hrun]
  rfl

theorem Reads.member {ts : List Token} {e : Expr} (h : Reads true ts e) (n : String) :
    Reads true (ts ++ [.symbol '.', .name n]) (.member e n) := by
  refine reads_of_run fun prefixes frames => ?_
  rw [run_append, h.tight]
  rfl

theorem Reads.subscript {ts us : List Token} {e i : Expr} (h : Reads true ts e)
    (hindex : Reads false us i) :
    Reads true (ts ++ [.symbol '['] ++ us ++ [.symbol ']']) (.subscript e i) := by
  refine reads_of_run fun prefixes frames => ?_
  obtain ⟨inner, core, hrun, rfl⟩ := hindex.bracketed (.subscript e prefixes :: frames)
  rw [List.append_assoc, List.append_assoc, run_append, h.tight, Option.bind_some,
    List.singleton_append]
  show run ⟨.operand, [], .subscript e prefixes :: frames⟩ (us ++ [.symbol ']']) = _
  rw [run_append, hrun]
  rfl

/-- The call with one more argument. -/
def add (a : Argument) (positional : List Expr) (named : List (String × Expr)) :
    List Expr × List (String × Expr) :=
  match a.name with
  | some n => (positional, named ++ [(n, a.value)])
  | none => (positional ++ [a.value], named)

/-- An argument of a call is added when a comma or the end of the call follows. -/
theorem run_argument {a : Argument} (h : Reads false a.tokens a.value) (f : Expr)
    (positional : List Expr) (named : List (String × Expr)) (outer : List Prefix)
    (frames : List Frame) :
    run ⟨.operand, [], .call f positional named outer :: frames⟩ (a.text ++ [.symbol ',']) =
        some ⟨.operand, [], .call f (add a positional named).1 (add a positional named).2 outer ::
          frames⟩ ∧
      run ⟨.operand, [], .call f positional named outer :: frames⟩ (a.text ++ [.symbol ')']) =
        some ⟨.operator (.call f (add a positional named).1 (add a positional named).2), outer,
          frames⟩ := by
  obtain ⟨name, tokens, value⟩ := a
  cases name with
  | none =>
    obtain ⟨inner, core, hrun, hwrap⟩ := h.bracketed (.call f positional named outer :: frames)
    cases hwrap
    simp only [Argument.text, run_append, hrun]
    exact ⟨rfl, rfl⟩
  | some n =>
    obtain ⟨inner, core, hrun, hwrap⟩ :=
      h.bracketed (.argument f positional named n outer :: frames)
    cases hwrap
    have hname : run ⟨.operand, [], .call f positional named outer :: frames⟩
        ([.name n, .symbol '='] ++ tokens) =
        run ⟨.operand, [], .argument f positional named n outer :: frames⟩ tokens := rfl
    simp only [Argument.text, run_append] at hname ⊢
    rw [hname, hrun]
    exact ⟨rfl, rfl⟩

/-- The arguments of a call are added in their order. -/
theorem run_arguments {arguments : List Argument} (hne : arguments ≠ [])
    (h : ∀ a ∈ arguments, Reads false a.tokens a.value) (f : Expr) (positional : List Expr)
    (named : List (String × Expr)) (outer : List Prefix) (frames : List Frame) :
    run ⟨.operand, [], .call f positional named outer :: frames⟩
        (Argument.texts arguments ++ [.symbol ')']) =
      some ⟨.operator (.call f (positional ++ Argument.positional arguments)
        (named ++ Argument.named arguments)), outer, frames⟩ := by
  induction arguments generalizing positional named with
  | nil => exact absurd rfl hne
  | cons a rest ih =>
    have hfirst := run_argument (h a List.mem_cons_self) f positional named outer frames
    have hadd : ∀ rest, (add a positional named).1 ++ Argument.positional rest =
          positional ++ Argument.positional (a :: rest) ∧
        (add a positional named).2 ++ Argument.named rest =
          named ++ Argument.named (a :: rest) := by
      intro rest
      obtain ⟨name, tokens, value⟩ := a
      cases name <;> simp [add, Argument.positional, Argument.named]
    cases rest with
    | nil =>
      have htexts : Argument.texts [a] = a.text := List.intercalate_singleton
      have hlast := hadd []
      simp only [Argument.positional, Argument.named, List.filterMap_nil, List.append_nil] at hlast
      rw [htexts, hfirst.2, hlast.1, hlast.2]
      rfl
    | cons b rest =>
      have htexts : Argument.texts (a :: b :: rest) =
          a.text ++ [.symbol ','] ++ Argument.texts (b :: rest) :=
        List.intercalate_cons_cons
      rw [htexts, List.append_assoc, run_append, hfirst.1, Option.bind_some,
        ih (List.cons_ne_nil b rest) (fun c hc => h c (List.mem_cons_of_mem _ hc)),
        (hadd _).1, (hadd _).2]

theorem Reads.call {ts : List Token} {f : Expr} {arguments : List Argument}
    (h : Reads true ts f) (harguments : ∀ a ∈ arguments, Reads false a.tokens a.value) :
    Reads true (ts ++ [.symbol '('] ++ Argument.texts arguments ++ [.symbol ')'])
      (.call f (Argument.positional arguments) (Argument.named arguments)) := by
  refine reads_of_run fun prefixes frames => ?_
  rw [List.append_assoc, List.append_assoc, run_append, h.tight, Option.bind_some,
    List.singleton_append]
  show run ⟨.operand, [], .call f [] [] prefixes :: frames⟩
    (Argument.texts arguments ++ [.symbol ')']) = _
  by_cases hne : arguments = []
  · subst hne
    rfl
  · rw [run_arguments hne harguments]
    rfl

/-- Reading a derived text leaves its tree. -/
theorem reads_of_derives {level : Level} {ts : List Token} {e : Expr} (h : Derives level ts e) :
    Reads (level = .primary) ts e := by
  induction h with
  | name n => exact reads_of_run fun _ _ => rfl
  | none => exact reads_of_run fun _ _ => rfl
  | number text => exact reads_of_run fun _ _ => rfl
  | text content => exact reads_of_run fun _ _ => rfl
  | emptyDict => exact reads_of_run fun _ _ => rfl
  | emptyList => exact reads_of_run fun _ _ => rfl
  | parens inside ih => exact ih.parens
  | member object n ih => exact ih.member n
  | subscript object index ih ihindex => exact ih.subscript ihindex
  | call callee values ordered ih ihvalues => exact ih.call ihvalues
  | await awaited ih =>
    refine Reads.prefixed (p := .await) ih.loose ?_
    exact fun _ _ => rfl
  | ofPrimary tight ih => exact ih.loose
  | negate operand ih =>
    refine Reads.prefixed (p := .negate) ih ?_
    exact fun _ _ => rfl
  | ofAwaited unsigned ih => exact ih

/-- The machine ends with the tree of a derivation. -/
theorem run_of_derives {ts : List Token} {e : Expr} (h : Derives .expression ts e) :
    ((run ⟨.operand, [], []⟩ ts).bind tree?) = some e := by
  obtain ⟨inner, core, hrun, rfl⟩ := Reads.bracketed (reads_of_derives h) []
  rw [hrun]
  rfl

end Machine

/-- A text has at most one tree. -/
theorem derives_unique {ts : List Token} {e e' : Expr} (h : Derives .expression ts e)
    (h' : Derives .expression ts e') : e = e' :=
  Option.some.inj ((Machine.run_of_derives h).symm.trans (Machine.run_of_derives h'))

end PollScript
