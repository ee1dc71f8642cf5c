/-!
# Operator precedence

How tightly the parts of a Python expression hold together, and when an
expression needs parentheses in its place. Orders fall into classes, of which a
lower one binds tighter. An expression whose class is not lower than what its
place asks for is put into parentheses, unless the two are known to chain.
-/

namespace PollScript.Script

/-- The form of an expression, tightest first. -/
inductive Order where
  | atomic
  | collection
  | member
  | functionCall
  | await
  | exponentiation
  | unarySign
  | multiplicative
  | additive
  | relational
  | logicalNot
  | logicalAnd
  | logicalOr
  | conditional
  | lambda
  | none
deriving DecidableEq, Repr

namespace Order

/-- All orders, tightest first. -/
def all : List Order :=
  [.atomic, .collection, .member, .functionCall, .await, .exponentiation, .unarySign,
   .multiplicative, .additive, .relational, .logicalNot, .logicalAnd, .logicalOr,
   .conditional, .lambda, .none]

/-- The precedence class (`class`). A lower class binds tighter. -/
def precedence : Order → Nat
  | .atomic => 0
  | .collection => 1
  | .member | .functionCall => 2
  | .await => 3
  | .exponentiation => 4
  | .unarySign => 5
  | .multiplicative => 6
  | .additive => 7
  | .relational => 8
  | .logicalNot => 9
  | .logicalAnd => 10
  | .logicalOr => 11
  | .conditional => 12
  | .lambda => 13
  | .none => 99

/-- The outer and inner orders of one class that chain without parentheses
    (`OVERRIDES`). -/
def chaining : List (Order × Order) :=
  [(.functionCall, .member), (.functionCall, .functionCall), (.member, .member),
   (.member, .functionCall), (.logicalNot, .logicalNot),
   (.multiplicative, .multiplicative), (.additive, .additive),
   (.logicalAnd, .logicalAnd), (.logicalOr, .logicalOr)]

/-- Whether an expression of the order `inner` needs parentheses in a place that
    asks for the order `outer` (`needs_parens`). -/
def needsParens (inner outer : Order) : Bool :=
  if inner.precedence < outer.precedence then false
  else if outer.precedence = inner.precedence ∧
      (outer.precedence = 0 ∨ outer.precedence = 99) then false
  else !chaining.contains (outer, inner)

end Order

end PollScript.Script
