/-!
# Decimal numerals

A decimal numeral has a run of digits, an optional point with a second run, and
an optional exponent. Two readers use this grammar: the text of a number field,
and the numbers of a JSON document, which puts further conditions on the runs.
A numeral denotes the double nearest to its value.

Results:

* `ofChars?_digits`: a run of digits is the numeral that it looks like.
-/

namespace PollScript.Decimal

/-- Splits off one sign, `true` for a minus. A text without a sign counts as
    having a plus. -/
def splitSign : List Char → Bool × List Char
  | '-' :: rest => (true, rest)
  | '+' :: rest => (false, rest)
  | rest => (false, rest)

/-- The value of a whole text of decimal digits, of which there must be at
    least one. -/
def digitRun? (cs : List Char) : Option Nat :=
  if cs ≠ [] ∧ cs.all Char.isDigit then some (Nat.ofDigitChars 10 cs 0) else none

/-- An unsigned numeral as written. The runs of digits may be empty, and
    `fraction` is absent when no point is written. -/
structure Numeral where
  whole : List Char
  fraction : Option (List Char)
  exponent : Option Int
deriving DecidableEq, Repr

namespace Numeral

/-- Reads what may follow the digits: nothing, or the letter `e` in either
    case, an optional sign and digits. -/
def exponent? : List Char → Option (Option Int)
  | [] => some none
  | mark :: rest =>
    if mark = 'e' ∨ mark = 'E' then
      let (negative, digits) := splitSign rest
      (digitRun? digits).map fun n => some (if negative then -(n : Int) else n)
    else none

/-- Reads a whole text as a numeral. -/
def ofChars? (cs : List Char) : Option Numeral :=
  let whole := cs.takeWhile Char.isDigit
  match cs.dropWhile Char.isDigit with
  | '.' :: rest =>
    (exponent? (rest.dropWhile Char.isDigit)).map
      (⟨whole, some (rest.takeWhile Char.isDigit), ·⟩)
  | rest => (exponent? rest).map (⟨whole, none, ·⟩)

/-- All written digits as one number. -/
def coefficient (n : Numeral) : Nat :=
  Nat.ofDigitChars 10 (n.whole ++ n.fraction.getD []) 0

/-- The power of ten that the coefficient counts. -/
def scale (n : Numeral) : Int :=
  n.exponent.getD 0 - (n.fraction.getD []).length

/-- A numeral without a point and without an exponent. -/
def isInteger (n : Numeral) : Bool :=
  n.fraction.isNone && n.exponent.isNone

/-- A numeral with a digit before or after the point. -/
def hasDigit (n : Numeral) : Bool :=
  !n.whole.isEmpty || !(n.fraction.getD []).isEmpty

/-- The double nearest to `coefficient * 10 ^ scale`, a tie going to the even
    neighbour. Values beyond the largest double give infinity and values below
    half the least positive one give zero. -/
def magnitude (n : Numeral) : Float :=
  Float.ofScientific n.coefficient (n.scale < 0) n.scale.natAbs

/-- A run of digits is the numeral that it looks like. -/
theorem ofChars?_digits (cs : List Char) (h : ∀ c ∈ cs, c.isDigit = true) :
    ofChars? cs = some ⟨cs, none, none⟩ := by
  have runs : cs.takeWhile Char.isDigit = cs ∧ cs.dropWhile Char.isDigit = [] := by
    induction cs with
    | nil => exact ⟨rfl, rfl⟩
    | cons c cs ih => simp_all
  simp [ofChars?, runs, exponent?]

end Numeral

/-! ## Reading the text of a number -/

/-- The words for the values that no numeral denotes. -/
def special? (word : String) : Option Float :=
  if word = "inf" ∨ word = "infinity" then some (1 / 0)
  else if word = "nan" then some (0 / 0)
  else none

/-- Reads an unsigned number: a word for infinity or for no number in any
    letter case, or a numeral with at least one digit. -/
def readMagnitude? (cs : List Char) : Option Float :=
  match special? (String.ofList (cs.map Char.toLower)) with
  | some value => some value
  | none =>
    match Numeral.ofChars? cs with
    | some n => if n.hasDigit then some n.magnitude else none
    | none => none

/-- Reads a number with at most one sign and nothing else around it. -/
def read? (text : String) : Option Float :=
  let (negative, body) := splitSign text.toList
  (readMagnitude? body).map fun value => if negative then -value else value

end PollScript.Decimal
