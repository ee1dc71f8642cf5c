import PollScript.Json.Value

/-!
# Printing JSON

One printer with two spacings. Compact text has no blanks at all. Laid-out text
puts each item and each member on a line of its own, two spaces deeper than
what holds it. Empty arrays and objects are written in one piece either way.
-/

namespace PollScript.Json

/-! ## Scalars -/

/-- Floating-point numbers: the shortest decimal, ties to the even digit, a
    fraction on whole numbers, and an exponent below `1e-5` and from `1e16`. -/
def numberLayout : Decimal.Layout where
  tie := .even
  wholeSuffix := ['.', '0']
  positional place := -5 ≤ place && place < 16

def hexDigit (n : Nat) : Char :=
  Nat.digitChar (n % 16)

/-- A character inside a string: quotes, backslashes and control characters are
    escaped, and all others stand for themselves. -/
def escapeChar (c : Char) : List Char :=
  if c = '"' then ['\\', '"']
  else if c = '\\' then ['\\', '\\']
  else if c = '\n' then ['\\', 'n']
  else if c = '\r' then ['\\', 'r']
  else if c = '\t' then ['\\', 't']
  else if c.toNat = 0x8 then ['\\', 'b']
  else if c.toNat = 0xC then ['\\', 'f']
  else if c.toNat < 0x20 then
    ['\\', 'u', '0', '0', hexDigit (c.toNat / 16), hexDigit c.toNat]
  else [c]

def textChars (s : String) : List Char :=
  ['"'] ++ s.toList.flatMap escapeChar ++ ['"']

def floatChars (x : Float) : List Char :=
  if x.isFinite then numberLayout.chars x.toModel.unpack else "null".toList

/-! ## Containers -/

/-- Where blanks stand in the text. -/
structure Spacing where
  lineBreak : Nat → List Char
  afterColon : List Char

/-- No blanks at all. -/
def Spacing.compact : Spacing where
  lineBreak _ := []
  afterColon := []

/-- A line for each item and member, indented by two spaces for each level. -/
def Spacing.pretty : Spacing where
  lineBreak depth := '\n' :: List.replicate (2 * depth) ' '
  afterColon := [' ']

/-- A container of parts that are already written. -/
def Spacing.enclose (spacing : Spacing) (depth : Nat) (opening closing : Char)
    (parts : List (List Char)) : List Char :=
  if parts.isEmpty then [opening, closing]
  else
    [opening] ++
      [','].intercalate (parts.map (spacing.lineBreak (depth + 1) ++ ·)) ++
      spacing.lineBreak depth ++ [closing]

mutual

/-- The text of a value that stands at the given depth. -/
def Value.chars (spacing : Spacing) (depth : Nat) : Value → List Char
  | .null => "null".toList
  | .bool b => (if b then "true" else "false").toList
  | .int n => (toString n).toList
  | .float x => floatChars x
  | .text s => textChars s
  | .array items => spacing.enclose depth '[' ']' (Value.itemChars spacing (depth + 1) items)
  | .object members =>
    spacing.enclose depth '\x7b' '\x7d' (Value.memberChars spacing (depth + 1) members)

/-- The texts of the items of an array. -/
def Value.itemChars (spacing : Spacing) (depth : Nat) : List Value → List (List Char)
  | [] => []
  | item :: rest => item.chars spacing depth :: Value.itemChars spacing depth rest

/-- The texts of the members of an object. -/
def Value.memberChars (spacing : Spacing) (depth : Nat) :
    List (String × Value) → List (List Char)
  | [] => []
  | (key, value) :: rest =>
    (textChars key ++ [':'] ++ spacing.afterColon ++ value.chars spacing depth) ::
      Value.memberChars spacing depth rest

end

/-- The text of a value without blanks. -/
def Value.compact (v : Value) : String :=
  String.ofList (v.chars .compact 0)

/-- The text of a value over several lines. -/
def Value.pretty (v : Value) : String :=
  String.ofList (v.chars .pretty 0)

end PollScript.Json
