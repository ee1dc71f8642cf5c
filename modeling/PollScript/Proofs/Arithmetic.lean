import PollScript.Proofs.Numerals
import PollScript.Script.Order

/-!
# Arithmetic in Python

Sums, differences, products and quotients of literals: as trees, with the number
that a tree stands for, and as text, with the trees that Python reads from it.
Python takes products and quotients before sums and differences, and a chain of
one level from the left, so a text has at most one reading.

A tree is written with a pair of parentheses wherever `Order.needsParens` asks
for one. That is so for a sum inside a product, but not for a chain in the right
operand of an operator of its own level. What is read back from the text is
therefore not the tree but its `leftFirst` form, in which every such chain has
been opened to the left. The two have the same value if the operator in front of
the chain allows that, as `+` always does and `*` does unless there is a `//` in
the chain.

Results:

* `Reads.unique`: a text has at most one reading.
* `reads_tokens`: what is read from the text of a tree is its `leftFirst` form.
* `scan_code`: the text of a tree consists of the tokens of the tree.
* `value_leftFirst`: in a `Faithful` tree the `leftFirst` form has the value of
  the tree.
* `evaluates_code`: the text of a tree evaluates to the value of the `leftFirst`
  form.
-/

namespace PollScript.Arithmetic

open Script

/-! ## Trees -/

/-- An operator on integers. -/
inductive Operator where
  | plus
  | minus
  | times
  | quotient
deriving DecidableEq, Repr

/-- How tightly a part of a text holds together. -/
inductive Level where
  /-- A literal, or anything in parentheses. -/
  | operand
  | product
  | sum
deriving DecidableEq, Repr

namespace Operator

/-- The operator in Python. -/
def symbol : Operator → String
  | plus => "+"
  | minus => "-"
  | times => "*"
  | quotient => "//"

/-- The level of the chains that the operator is in. -/
def level : Operator → Level
  | plus | minus => .sum
  | times | quotient => .product

/-- What the operator gives for two numbers. Nothing can be divided by zero. -/
def apply : Operator → Int → Int → Option Int
  | plus, a, b => some (a + b)
  | minus, a, b => some (a - b)
  | times, a, b => some (a * b)
  | quotient, a, b => if b = 0 then none else some (a.fdiv b)

end Operator

namespace Level

/-- The precedence of a level in expressions. -/
def order : Level → Order
  | operand => .atomic
  | product => .multiplicative
  | sum => .additive

/-- The level of the operands of a level. -/
def tighter : Level → Level
  | operand | product => .operand
  | sum => .product

end Level

/-- A tree of operators and literals. -/
inductive Formula where
  | literal (n : Nat)
  | node (op : Operator) (left right : Formula)
deriving DecidableEq, Repr

namespace Formula

/-- The number that the tree stands for, if nothing is divided by zero. -/
def value : Formula → Option Int
  | literal n => some n
  | node op left right => left.value.bind fun a => right.value.bind fun b => op.apply a b

/-- The level of the tree's outermost operator. -/
def level : Formula → Level
  | literal _ => .operand
  | node op .. => op.level

/-! ## Text -/

/-- Whether the tree needs parentheses as an operand. -/
def needsParens (operand : Formula) (op : Operator) : Bool :=
  operand.level.order.needsParens op.level.order

/-- The code of an operand, between parentheses if it needs them. -/
def spliced (operand : Formula) (op : Operator) (code : String) : String :=
  if operand.needsParens op then "(" ++ code ++ ")" else code

/-- The code of the tree. -/
def code : Formula → String
  | literal n => toString n
  | node op left right =>
    spliced left op left.code ++ " " ++ op.symbol ++ " " ++ spliced right op right.code

end Formula

/-- A token. -/
inductive Token where
  | number (n : Nat)
  | operator (op : Operator)
  | opening
  | closing
deriving DecidableEq, Repr

/-- The token that a character is, if it is not part of a longer one. A space is
    none. -/
def separator? : Char → Option (List Token)
  | ' ' => some []
  | '+' => some [.operator .plus]
  | '-' => some [.operator .minus]
  | '*' => some [.operator .times]
  | '(' => some [.opening]
  | ')' => some [.closing]
  | _ => none

/-- The tokens of a text, of which the first may go on with the number `pending`.
    Everything in the text but spaces must be part of a token. -/
def scan (pending : Option Nat) : List Char → Option (List Token)
  | [] => some (pending.toList.map .number)
  | '/' :: '/' :: rest => (scan none rest).map fun ts =>
      pending.toList.map .number ++ .operator .quotient :: ts
  | c :: rest =>
    if c.isDigit then scan (some (10 * pending.getD 0 + (c.toNat - '0'.toNat))) rest
    else (separator? c).bind fun token => (scan none rest).map fun ts =>
      pending.toList.map .number ++ token ++ ts

/-- Which tree a part of a text is, read as something of a level: chains are
    taken from the left, and their members are of a tighter level. -/
inductive Reads : Level → List Token → Formula → Prop where
  | literal (n : Nat) : Reads .operand [.number n] (.literal n)
  | parentheses {ts : List Token} {x : Formula} (inner : Reads .sum ts x) :
      Reads .operand (.opening :: ts ++ [.closing]) x
  | alone {ts : List Token} {x : Formula} (operand : Reads .operand ts x) :
      Reads .product ts x
  | term {ts : List Token} {x : Formula} (product : Reads .product ts x) : Reads .sum ts x
  /-- A chain and one more member. -/
  | chain {op : Operator} {ts us : List Token} {x y : Formula} (left : Reads op.level ts x)
      (right : Reads op.level.tighter us y) :
      Reads op.level (ts ++ .operator op :: us) (.node op x y)

/-- The code evaluates to the number: its reading has that value. -/
def Evaluates (code : String) (v : Int) : Prop :=
  ∃ ts x, scan none code.toList = some ts ∧ Reads .sum ts x ∧ x.value = some v

/-! ## Readings are unique

A machine that reads tokens one by one finds the only possible reading. It has a
frame for every open pair of parentheses, with the operands that wait for the
end of a product or of a sum. -/

/-- The left operand and the operator that wait for a right operand. -/
abbrev Waiting := Option (Formula × Operator)

/-- Takes what was waited for as the right operand. -/
def complete (waiting : Waiting) (x : Formula) : Formula :=
  match waiting with
  | none => x
  | some (left, op) => .node op left x

/-- What waits inside a pair of parentheses. -/
structure Frame where
  sum : Waiting
  product : Waiting

/-- All that is waited for inside a pair of parentheses, once it ends with an
    operand. -/
def Frame.close (frame : Frame) (x : Formula) : Formula :=
  complete frame.sum (complete frame.product x)

/-- The state of the machine: whether it is before or after an operand. -/
inductive Machine where
  | before (frame : Frame) (outer : List Frame)
  | after (frame : Frame) (x : Formula) (outer : List Frame)

namespace Machine

/-- Reads a token. -/
def step : Machine → Token → Option Machine
  | before frame outer, .number n => some (after frame (.literal n) outer)
  | before frame outer, .opening => some (before ⟨none, none⟩ (frame :: outer))
  | after frame x outer, .operator op =>
    match op.level with
    | .sum => some (before ⟨some (frame.close x, op), none⟩ outer)
    | _ => some (before ⟨frame.sum, some (complete frame.product x, op)⟩ outer)
  | after frame x (around :: outer), .closing => some (after around (frame.close x) outer)
  | _, _ => none

/-- Reads tokens in order. -/
def run (machine : Machine) (ts : List Token) : Option Machine :=
  ts.foldlM step machine

/-- The reading when all tokens are read. -/
def result? : Machine → Option Formula
  | after frame x [] => some (frame.close x)
  | _ => none

theorem run_append {machine middle : Machine} {ts : List Token}
    (h : machine.run ts = some middle) (us : List Token) :
    machine.run (ts ++ us) = middle.run us := by
  simp only [run] at h
  simp [run, List.foldlM_append, h]

theorem run_cons {machine middle : Machine} {t : Token} (h : machine.step t = some middle)
    (us : List Token) : machine.run (t :: us) = middle.run us := by
  simp [run, h]

/-- Where the machine is after something of a level: an operand is complete, and
    of a longer chain the last operand still has the rest waiting for it. -/
def Arrives : Level → List Token → Formula → Prop
  | .operand, ts, x => ∀ frame outer, (before frame outer).run ts = some (after frame x outer)
  | .product, ts, x => ∀ sum outer, ∃ product y,
      (before ⟨sum, none⟩ outer).run ts = some (after ⟨sum, product⟩ y outer) ∧
        complete product y = x
  | .sum, ts, x => ∀ outer, ∃ frame y,
      (before ⟨none, none⟩ outer).run ts = some (after frame y outer) ∧ frame.close y = x

/-- The machine follows every reading. -/
theorem arrives {level : Level} {ts : List Token} {x : Formula} (h : Reads level ts x) :
    Arrives level ts x := by
  induction h with
  | literal n => intro frame outer; rfl
  | parentheses _ ih =>
    intro frame outer
    obtain ⟨inside, y, hrun, hclose⟩ := ih (frame :: outer)
    rw [List.cons_append, run_cons rfl, run_append hrun, run_cons rfl, hclose]
    rfl
  | alone _ ih => exact fun sum outer => ⟨none, _, ih ⟨sum, none⟩ outer, rfl⟩
  | term _ ih =>
    intro outer
    obtain ⟨product, y, hrun, hcomplete⟩ := ih none outer
    exact ⟨⟨none, product⟩, y, hrun, hcomplete⟩
  | @chain op ts us x y _ _ left right =>
    -- The operator decides whether a product or only an operand ends here.
    cases hlevel : op.level with
    | operand => cases op <;> cases hlevel
    | product =>
      rw [hlevel] at left right
      intro sum outer
      obtain ⟨product, z, hrun, hcomplete⟩ := left sum outer
      refine ⟨some (x, op), y, ?_, rfl⟩
      rw [run_append hrun, run_cons (by simp [step, hlevel]; rfl), hcomplete]
      exact right ⟨sum, some (x, op)⟩ outer
    | sum =>
      rw [hlevel] at left right
      intro outer
      obtain ⟨frame, z, hrun, hclose⟩ := left outer
      obtain ⟨product, w, hright, hcomplete⟩ := right (some (x, op)) outer
      refine ⟨⟨some (x, op), product⟩, w, ?_, ?_⟩
      · rw [run_append hrun, run_cons (by simp [step, hlevel]; rfl), hclose]
        exact hright
      · rw [Frame.close, hcomplete, complete]

end Machine

/-- A text has at most one reading. -/
theorem Reads.unique {ts : List Token} {x y : Formula} (hx : Reads .sum ts x)
    (hy : Reads .sum ts y) : x = y := by
  obtain ⟨frame, a, hrun, rfl⟩ := Machine.arrives hx []
  obtain ⟨frame', b, hrun', rfl⟩ := Machine.arrives hy []
  have same := hrun.symm.trans hrun'
  simp only [Option.some.injEq, Machine.after.injEq] at same
  rw [same.1, same.2.1]

/-! ## Chains opened to the left -/

namespace Formula

/-- The tree for a tree, an operator and a chain in a row, read from the left. -/
def graft (x : Formula) (op : Operator) : Formula → Formula
  | literal n => node op x (literal n)
  | node op' left right =>
    if op'.level = op.level then node op' (graft x op left) right
    else node op x (node op' left right)

/-- The tree in which no operator has a chain of its own level in its right
    operand, with the same operators and literals in the same order. -/
def leftFirst : Formula → Formula
  | literal n => literal n
  | node op left right => graft left.leftFirst op right.leftFirst

/-- The tokens of an operand, between parentheses if it needs them. -/
def placed (operand : Formula) (op : Operator) (tokens : List Token) : List Token :=
  if operand.needsParens op then .opening :: tokens ++ [.closing] else tokens

/-- The tokens of the tree. -/
def tokens : Formula → List Token
  | literal n => [.number n]
  | node op left right =>
    placed left op left.tokens ++ .operator op :: placed right op right.tokens

theorem level_graft (x : Formula) (op : Operator) (y : Formula) :
    (graft x op y).level = op.level := by
  cases y with
  | literal n => rfl
  | node op' left right =>
    unfold graft
    split
    · next same => exact same
    · rfl

theorem level_leftFirst (t : Formula) : t.leftFirst.level = t.level := by
  cases t with
  | literal n => rfl
  | node op left right => exact level_graft _ _ _

theorem graft_of_level_ne {x y : Formula} {op : Operator} (h : y.level ≠ op.level) :
    graft x op y = node op x y := by
  cases y with
  | literal n => rfl
  | node op' left right => exact if_neg h

/-- A chain behind a chain may be opened first or last. -/
theorem graft_graft (x : Formula) {op op' : Operator} (same : op'.level = op.level)
    (y z : Formula) : graft x op (graft y op' z) = graft (graft x op y) op' z := by
  induction z with
  | literal n => simp only [graft, if_pos same]
  | node op'' left right ih _ =>
    by_cases h : op''.level = op'.level
    · simp only [graft, if_pos h, if_pos (h.trans same), ih]
    · simp only [graft, if_neg h, if_pos same]

end Formula

/-! ## What is read from a tree's text -/

theorem Operator.level_cases (op : Operator) : op.level = .sum ∨ op.level = .product := by
  cases op <;> decide

theorem Reads.of_tighter {op : Operator} {ts : List Token} {x : Formula}
    (h : Reads op.level.tighter ts x) : Reads op.level ts x := by
  rcases op.level_cases with level | level <;> rw [level] at h ⊢
  · exact .term h
  · exact .alone h

namespace Formula

theorem placed_of_level_eq {t : Formula} {op : Operator} (h : t.level = op.level)
    (ts : List Token) : t.placed op ts = ts := by
  have flat : t.needsParens op = false := by
    unfold needsParens
    rw [h]
    cases op <;> decide
  simp [placed, flat]

/-- An operand of another level, in parentheses if it needs them, is a member of
    the operator's chain. -/
theorem reads_placed {t : Formula} {op : Operator} {ts : List Token} {x : Formula}
    (h : Reads t.level ts x) (other : t.level ≠ op.level) :
    Reads op.level.tighter (t.placed op ts) x := by
  have decided : t.needsParens op = t.level.order.needsParens op.level.order := rfl
  rw [placed, decided]
  rcases op.level_cases with level | level <;> rw [level] at other ⊢ <;>
    cases hlevel : t.level <;> rw [hlevel] at h other
  · exact .alone h
  · exact h
  · exact absurd rfl other
  · exact h
  · exact absurd rfl other
  · exact .parentheses h

/-- What is read from the text of a tree is its `leftFirst` form. Behind a chain
    and an operator, that form is grafted onto the chain. -/
theorem reads_tokens_and_graft (t : Formula) :
    Reads t.level t.tokens t.leftFirst ∧
      ∀ (op : Operator) (ts : List Token) (x : Formula), Reads op.level ts x →
        Reads op.level (ts ++ .operator op :: t.placed op t.tokens) (graft x op t.leftFirst) := by
  -- A chain in an operand of another level is a member of its own, whatever is in it.
  have behind (t : Formula) (h : Reads t.level t.tokens t.leftFirst) {op : Operator}
      (other : t.level ≠ op.level) {ts : List Token} {x : Formula} (hx : Reads op.level ts x) :
      Reads op.level (ts ++ .operator op :: t.placed op t.tokens) (graft x op t.leftFirst) := by
    rw [graft_of_level_ne (by rwa [level_leftFirst])]
    exact .chain hx (reads_placed h other)
  induction t with
  | literal n =>
    refine ⟨.literal n, fun op ts x hx => behind (literal n) (.literal n) ?_ hx⟩
    cases op <;> nofun
  | node op left right hleft hright =>
    have whole : Reads op.level (node op left right).tokens (node op left right).leftFirst := by
      refine hright.2 op _ _ ?_
      by_cases same : left.level = op.level
      · rw [placed_of_level_eq same, ← same]
        exact hleft.1
      · exact .of_tighter (reads_placed hleft.1 same)
    refine ⟨whole, fun op' ts x hx => ?_⟩
    by_cases same : op.level = op'.level
    · -- The chain goes on, first with what is left of `op` and then with what is right of it.
      have first : left.placed op left.tokens = left.placed op' left.tokens := by
        unfold placed needsParens
        rw [same]
      have begun := hleft.2 op' ts x hx
      have ended := hright.2 op _ _ (same ▸ begun)
      rw [placed_of_level_eq (t := node op left right) same, tokens, leftFirst, first,
        graft_graft x same, ← same]
      simpa using ended
    · exact behind (node op left right) whole same hx

end Formula

/-- The text of a tree is read as the tree's `leftFirst` form. -/
theorem reads_tokens (t : Formula) : Reads .sum t.tokens t.leftFirst := by
  have h := t.reads_tokens_and_graft.1
  cases hlevel : t.level with
  | operand => exact .term (.alone (hlevel ▸ h))
  | product => exact .term (hlevel ▸ h)
  | sum => exact hlevel ▸ h

/-! ## The tokens of a tree's text -/

/-- Whether no digit of a literal can follow. -/
def EndsLiteral (rest : List Char) : Prop :=
  ∀ c, rest.head? = some c → c.isDigit = false

theorem endsLiteral_nil : EndsLiteral [] :=
  nofun

theorem endsLiteral_cons {c : Char} {rest : List Char} (h : c.isDigit = false) :
    EndsLiteral (c :: rest) := by
  intro c' hc'
  cases hc'
  exact h

theorem scan_some {rest : List Char} (h : EndsLiteral rest) (n : Nat) :
    scan (some n) rest = (scan none rest).map (.number n :: ·) := by
  unfold scan
  split
  · rfl
  · simp [Function.comp_def]
  · next c rest _ =>
    rw [if_neg (by simp [h c rfl]), if_neg (by simp [h c rfl])]
    simp [Option.map_bind, Function.comp_def]

theorem scan_digit {pending : Option Nat} {c : Char} (h : c.isDigit = true) (rest : List Char) :
    scan pending (c :: rest) =
      scan (some (10 * pending.getD 0 + (c.toNat - '0'.toNat))) rest := by
  rw [scan.eq_3, if_pos h]
  rintro rest' rfl
  exact absurd h (by decide)

theorem scan_digits (ds : List Char) (h : ∀ c ∈ ds, c.isDigit = true) (n : Nat)
    (rest : List Char) :
    scan (some n) (ds ++ rest) = scan (some (Nat.ofDigitChars 10 ds n)) rest := by
  induction ds generalizing n with
  | nil => rfl
  | cons d ds ih =>
    rw [List.cons_append, scan_digit (h d (by simp)), Nat.ofDigitChars_cons]
    exact ih (fun c hc => h c (by simp [hc])) _

/-- A written literal is the token of its number. -/
theorem scan_literal (n : Nat) {rest : List Char} (h : EndsLiteral rest) :
    scan none ((toString n).toList ++ rest) = (scan none rest).map (.number n :: ·) := by
  have written : (toString n).toList = Nat.toDigits 10 n := by
    rw [Nat.toString_eq_ofList_toDigits, String.toList_ofList]
  have digits := (isDigits_iff.mp (isDigits_toDigits n)).2
  have number : Nat.ofDigitChars 10 (Nat.toDigits 10 n) 0 = n :=
    Nat.ofDigitChars_toDigits (by decide) (by decide)
  rw [written]
  cases hds : Nat.toDigits 10 n with
  | nil => exact absurd hds Nat.toDigits_ne_nil
  | cons d ds =>
    rw [hds] at digits number
    rw [Nat.ofDigitChars_cons] at number
    rw [List.cons_append, scan_digit (digits d (by simp)),
      scan_digits ds (fun c hc => digits c (by simp [hc])), Option.getD_none, number]
    exact scan_some h n

/-- A separator is its tokens. -/
theorem scan_separator {c : Char} {ts : List Token} (h : separator? c = some ts)
    (rest : List Char) : scan none (c :: rest) = (scan none rest).map (ts ++ ·) := by
  unfold separator? at h
  split at h <;> cases h <;> simp [scan, separator?]

theorem scan_space (rest : List Char) : scan none (' ' :: rest) = scan none rest := by
  simp [scan_separator (c := ' ') rfl]

theorem scan_symbol (op : Operator) (rest : List Char) :
    scan none (op.symbol.toList ++ rest) = (scan none rest).map (.operator op :: ·) := by
  cases op <;> simp [Operator.symbol, scan, separator?]

/-- The text of a tree in front of other text consists of the tokens of the tree. -/
theorem scan_code_append (t : Formula) {rest : List Char} (h : EndsLiteral rest) :
    scan none (t.code.toList ++ rest) = (scan none rest).map (t.tokens ++ ·) := by
  induction t generalizing rest with
  | literal n => exact scan_literal n h
  | node op left right hleft hright =>
    -- What holds of an operand's code holds of the code with the parentheses.
    have placed (operand : Formula) {rest : List Char} (hrest : EndsLiteral rest)
        (ih : ∀ {rest : List Char}, EndsLiteral rest →
          scan none (operand.code.toList ++ rest) = (scan none rest).map (operand.tokens ++ ·)) :
        scan none ((operand.spliced op operand.code).toList ++ rest) =
          (scan none rest).map (operand.placed op operand.tokens ++ ·) := by
      unfold Formula.spliced Formula.placed
      split
      · have close : EndsLiteral (')' :: rest) := endsLiteral_cons (by decide)
        simp [scan_separator (c := '(') rfl, scan_separator (c := ')') rfl, ih close,
          Function.comp_def]
      · exact ih hrest
    have space : ∀ rest, EndsLiteral (' ' :: rest) := fun _ => endsLiteral_cons (by decide)
    have blank : " ".toList = [' '] := rfl
    simp only [Formula.code, Formula.tokens, String.toList_append, List.append_assoc, blank,
      List.cons_append, List.nil_append]
    rw [placed left (space _) hleft, scan_space, scan_symbol, scan_space, placed right h hright]
    simp [Function.comp_def]

/-- The text of a tree consists of the tokens of the tree. -/
theorem scan_code (t : Formula) : scan none t.code.toList = some t.tokens := by
  have h := scan_code_append t endsLiteral_nil
  simpa [scan] using h

theorem Formula.code_ne_empty (t : Formula) : t.code ≠ "" := by
  intro h
  have htokens := scan_code t
  rw [h] at htokens
  cases t with
  | literal n => cases htokens
  | node op left right => simp [scan, Formula.tokens] at htokens

/-! ## Values -/

namespace Formula

/-- The operators of the chain that the tree is, if it is one of the level. -/
def chained (level : Level) : Formula → List Operator
  | literal _ => []
  | node op left right =>
    if op.level = level then left.chained level ++ op :: right.chained level else []

/-- Whether a chain of the operator's own level may be opened to the left behind
    the operator: behind `+` always, and behind `*` unless there is a `//` in
    the chain. -/
def Opens (op : Operator) (operand : Formula) : Prop :=
  op = .plus ∨ op = .times ∧ .quotient ∉ operand.chained .product

/-- Whether every chain that is opened may be opened. -/
def Faithful : Formula → Prop
  | literal _ => True
  | node op left right =>
    left.Faithful ∧ right.Faithful ∧ (right.level = op.level → Opens op right)

theorem chained_of_level_ne {t : Formula} {level : Level} (h : t.level ≠ level) :
    t.chained level = [] := by
  cases t with
  | literal n => rfl
  | node op left right => exact if_neg h

theorem chained_graft (x : Formula) {op : Operator} {level : Level} (h : op.level = level)
    (y : Formula) : (graft x op y).chained level = x.chained level ++ op :: y.chained level := by
  induction y with
  | literal n => simp [graft, chained, h]
  | node op' left right ih _ =>
    by_cases same : op'.level = level
    · simp [graft, chained, same, h, ih]
    · simp [graft, chained, same, h]

/-- Opening chains to the left moves no operator out of its chain. -/
theorem chained_leftFirst (t : Formula) (level : Level) :
    t.leftFirst.chained level = t.chained level := by
  induction t with
  | literal n => rfl
  | node op left right hleft hright =>
    by_cases h : op.level = level
    · rw [leftFirst, chained_graft _ h, hleft, hright, chained, if_pos h]
    · rw [chained_of_level_ne (by rwa [level_leftFirst]),
        chained_of_level_ne (t := node op left right) h]

theorem opens_leftFirst {op : Operator} {t : Formula} (h : Opens op t) : Opens op t.leftFirst := by
  unfold Opens at h ⊢
  rwa [chained_leftFirst]

/-- An operator in front of a chain that it opens may be applied to the first
    member of the chain instead of the whole chain. -/
theorem apply_opened {op op' : Operator} {left right : Formula} (same : op'.level = op.level)
    (h : Opens op (node op' left right)) (a b c : Int) :
    (op.apply a b).bind (op'.apply · c) = (op'.apply b c).bind (op.apply a ·) := by
  rcases h with rfl | ⟨rfl, h⟩
  · cases op' with
    | plus => simp [Operator.apply, Int.add_assoc]
    | minus => simp [Operator.apply, Int.add_sub_assoc]
    | times => cases same
    | quotient => cases same
  · cases op' with
    | plus => cases same
    | minus => cases same
    | times => simp [Operator.apply, Int.mul_assoc]
    | quotient => simp [chained, Operator.level] at h

/-- Behind an operator that opens it, a chain may be read from the left. -/
theorem value_graft (x : Formula) {op : Operator} {y : Formula}
    (h : y.level = op.level → Opens op y) : (graft x op y).value = (node op x y).value := by
  induction y with
  | literal n => rfl
  | node op' left right ih _ =>
    by_cases same : op'.level = op.level
    · have opens := h same
      have first : left.level = op.level → Opens op left := by
        intro _
        refine opens.imp_right fun ⟨htimes, hquotient⟩ => ⟨htimes, fun hmem => hquotient ?_⟩
        subst htimes
        simp [chained, show op'.level = .product from same, hmem]
      have begun := ih first
      rw [graft, if_pos same]
      simp only [value] at begun ⊢
      rw [begun]
      cases x.value with
      | none => rfl
      | some a =>
        cases left.value with
        | none => rfl
        | some b =>
          cases right.value with
          | none => simp
          | some c => exact apply_opened same opens a b c
    · rw [graft_of_level_ne (y := node op' left right) same]

/-- In a tree that only opens chains that may be opened, the `leftFirst` form has
    the value of the tree. -/
theorem value_leftFirst {t : Formula} (h : t.Faithful) : t.leftFirst.value = t.value := by
  induction t with
  | literal n => rfl
  | node op left right hleft hright =>
    obtain ⟨faithful, faithful', opens⟩ := h
    rw [leftFirst, value_graft _ fun same => opens_leftFirst (opens (level_leftFirst right ▸ same))]
    simp only [value, hleft faithful, hright faithful']

end Formula

/-- The text of a tree evaluates to the value of the tree's `leftFirst` form, and
    to nothing else. -/
theorem evaluates_code (t : Formula) (v : Int) :
    Evaluates t.code v ↔ t.leftFirst.value = some v := by
  constructor
  · rintro ⟨ts, x, hscan, hreads, hvalue⟩
    cases (scan_code t).symm.trans hscan
    rwa [(reads_tokens t).unique hreads]
  · exact fun h => ⟨t.tokens, t.leftFirst, scan_code t, reads_tokens t, h⟩

end PollScript.Arithmetic
