/-!
# Placeholders

The label of a block type refers to its slots by number: a percent sign with
decimal digits behind it. Numbers that do not fit 64 bits are no placeholders.

Results:

* `mem_distinct`: sorting and removing repetitions keeps the same numbers.
-/

namespace PollScript.Placeholder

/-- The bound on placeholder numbers. -/
def limit : Nat := UInt64.size

/-- The number that a text begins with: its longest run of decimal digits, which
    must not be empty, read as a number below the limit. -/
def leadingNumber? (cs : List Char) : Option Nat :=
  match cs.takeWhile Char.isDigit with
  | [] => none
  | digits =>
    let n := Nat.ofDigitChars 10 digits 0
    if n < limit then some n else none

/-- The placeholder numbers of a label, as often and in the order in which they
    stand there. These are the digits behind each percent sign. -/
def numbers : List Char → List Nat
  | [] => []
  | c :: rest => (if c = '%' then (leadingNumber? rest).toList else []) ++ numbers rest

/-- Adds a number to an ascending list without repetitions. -/
def insertDistinct (n : Nat) : List Nat → List Nat
  | [] => [n]
  | m :: rest =>
    if n < m then n :: m :: rest
    else if n = m then m :: rest
    else m :: insertDistinct n rest

/-- The numbers of a list in ascending order, each once. -/
def distinct (ns : List Nat) : List Nat :=
  ns.foldr insertDistinct []

/-- Adding a number adds just that number. -/
theorem mem_insertDistinct (k n : Nat) (ns : List Nat) :
    k ∈ insertDistinct n ns ↔ k = n ∨ k ∈ ns := by
  induction ns with
  | nil => simp [insertDistinct]
  | cons m rest ih => grind [insertDistinct]

/-- Sorting and removing repetitions keeps the same numbers. -/
theorem mem_distinct (k : Nat) (ns : List Nat) : k ∈ distinct ns ↔ k ∈ ns := by
  induction ns with
  | nil => simp [distinct]
  | cons n rest ih => simp_all [distinct, mem_insertDistinct]

end PollScript.Placeholder
