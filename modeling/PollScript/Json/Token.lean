import PollScript.Decimal.Numeral

/-!
# JSON tokens

A JSON text is a sequence of tokens with blanks between them. The scanner reads
one character at a time. Outside strings, what is neither a blank nor
punctuation belongs to a word, and a word must be a literal name or a number.
Only space, tab, line feed and carriage return are blanks.

Results:

* `Scanner.scan_append`: scanning a text in two parts is scanning it whole.
-/

namespace PollScript.Json

/-! ## Scalars -/

/-- A number as written. -/
structure Number where
  negative : Bool
  numeral : Decimal.Numeral
deriving DecidableEq, Repr

/-- A token that is a value on its own, or the key of a member. A string that
    spells half of a surrogate pair has no text. -/
inductive Scalar where
  | null
  | bool (b : Bool)
  | number (n : Number)
  | text (s : Option String)
deriving DecidableEq, Repr

/-- JSON restricts numerals: there is a digit before the point, a leading zero
    stands alone, and a point is followed by a digit. -/
def strictNumeral (n : Decimal.Numeral) : Bool :=
  !n.whole.isEmpty && (n.whole == ['0'] || n.whole.head? != some '0') &&
    n.fraction != some []

/-- Reads a number, whose only sign is a minus. -/
def Number.ofChars? (word : List Char) : Option Number :=
  let (negative, body) := match word with
    | '-' :: rest => (true, rest)
    | rest => (false, rest)
  match Decimal.Numeral.ofChars? body with
  | some n => if strictNumeral n then some ⟨negative, n⟩ else none
  | none => none

/-- Reads a word. -/
def Scalar.ofWord? (word : List Char) : Option Scalar :=
  if word = "null".toList then some .null
  else if word = "true".toList then some (.bool true)
  else if word = "false".toList then some (.bool false)
  else (Number.ofChars? word).map .number

/-! ## Strings -/

/-- One character of a string as written. -/
inductive Spelling where
  | char (c : Char)
  /-- A UTF-16 unit given by four hexadecimal digits. -/
  | unit (n : Nat)
deriving DecidableEq, Repr

/-- The first halves of surrogate pairs. -/
def isHighSurrogate (n : Nat) : Bool :=
  0xD800 ≤ n && n < 0xDC00

/-- The second halves of surrogate pairs. -/
def isLowSurrogate (n : Nat) : Bool :=
  0xDC00 ≤ n && n < 0xE000

/-- The text that is spelled. Two units that form a surrogate pair are one
    character, and half of a pair is an error. -/
def spelledChars? : List Spelling → Option (List Char)
  | [] => some []
  | .char c :: rest => (spelledChars? rest).map (c :: ·)
  | .unit high :: .unit low :: rest =>
    if isHighSurrogate high then
      if isLowSurrogate low then
        (spelledChars? rest).map
          (Char.ofNat (0x10000 + (high - 0xD800) * 0x400 + (low - 0xDC00)) :: ·)
      else none
    else if isLowSurrogate high then none
    else (spelledChars? (.unit low :: rest)).map (Char.ofNat high :: ·)
  | .unit n :: rest =>
    if isHighSurrogate n || isLowSurrogate n then none
    else (spelledChars? rest).map (Char.ofNat n :: ·)

/-- The character that a short escape stands for. -/
def shortEscape? (c : Char) : Option Char :=
  match c with
  | '"' => some '"'
  | '\\' => some '\\'
  | '/' => some '/'
  | 'b' => some '\x08'
  | 'f' => some '\x0c'
  | 'n' => some '\n'
  | 'r' => some '\r'
  | 't' => some '\t'
  | _ => none

/-- The value of a hexadecimal digit in either case. -/
def hexValue? (c : Char) : Option Nat :=
  if c.isDigit then some (c.toNat - '0'.toNat)
  else if 'a' ≤ c ∧ c ≤ 'f' then some (c.toNat - 'a'.toNat + 10)
  else if 'A' ≤ c ∧ c ≤ 'F' then some (c.toNat - 'A'.toNat + 10)
  else none

/-! ## Tokens -/

inductive Container where
  | array
  | object
deriving DecidableEq, Repr

inductive Token where
  | opening (container : Container)
  | closing (container : Container)
  | comma
  | colon
  | scalar (s : Scalar)
deriving DecidableEq, Repr

/-- The token of a punctuation character. -/
def Token.ofPunctuation? (c : Char) : Option Token :=
  match c with
  | '[' => some (.opening .array)
  | ']' => some (.closing .array)
  | '\x7b' => some (.opening .object)
  | '\x7d' => some (.closing .object)
  | ',' => some .comma
  | ':' => some .colon
  | _ => none

/-- The blanks between tokens. -/
def isJsonBlank (c : Char) : Bool :=
  c == ' ' || c == '\t' || c == '\n' || c == '\r'

namespace Scanner

/-- How far an escape inside a string has been read. -/
inductive Escape where
  | idle
  | begun
  /-- So many hexadecimal digits are missing after those with the given value. -/
  | hex (missing : Nat) (value : Nat)
deriving DecidableEq, Repr

/-- What the scanner is in the middle of. -/
inductive Mode where
  | between
  /-- In a word, of which the characters are given last first. -/
  | word (reversed : List Char)
  /-- In a string, of which the spelling so far is given last first. -/
  | quoted (reversed : List Spelling) (escape : Escape)
deriving DecidableEq, Repr

/-- The scanner's state: the mode and the tokens so far, last first. -/
structure State where
  mode : Mode
  reversed : List Token
deriving DecidableEq, Repr

def start : State := ⟨.between, []⟩

/-- Reads a character that stands between two tokens. -/
def stepBetween (tokens : List Token) (c : Char) : State :=
  if isJsonBlank c then ⟨.between, tokens⟩
  else if c = '"' then ⟨.quoted [] .idle, tokens⟩
  else match Token.ofPunctuation? c with
    | some token => ⟨.between, token :: tokens⟩
    | none => ⟨.word [c], tokens⟩

/-- Whether a character ends a word. -/
def endsWord (c : Char) : Bool :=
  isJsonBlank c || c == '"' || (Token.ofPunctuation? c).isSome

/-- Finishes a word that is given last character first. -/
def finishWord (reversed : List Char) (tokens : List Token) : Option (List Token) :=
  (Scalar.ofWord? reversed.reverse).map (.scalar · :: tokens)

/-- Finishes a string that is given last character first. -/
def finishString (reversed : List Spelling) (tokens : List Token) : List Token :=
  .scalar (.text ((spelledChars? reversed.reverse).map String.ofList)) :: tokens

/-- Reads a character inside a string. Control characters must be escaped. -/
def stepQuoted (spelled : List Spelling) (escape : Escape) (tokens : List Token) (c : Char) :
    Option State :=
  match escape with
  | .idle =>
    if c = '"' then some ⟨.between, finishString spelled tokens⟩
    else if c = '\\' then some ⟨.quoted spelled .begun, tokens⟩
    else if c.toNat < 0x20 then none
    else some ⟨.quoted (.char c :: spelled) .idle, tokens⟩
  | .begun =>
    if c = 'u' then some ⟨.quoted spelled (.hex 4 0), tokens⟩
    else (shortEscape? c).map fun e => ⟨.quoted (.char e :: spelled) .idle, tokens⟩
  | .hex missing value =>
    (hexValue? c).map fun digit =>
      let value := 16 * value + digit
      if missing ≤ 1 then ⟨.quoted (.unit value :: spelled) .idle, tokens⟩
      else ⟨.quoted spelled (.hex (missing - 1) value), tokens⟩

/-- Reads one character. -/
def step (s : State) (c : Char) : Option State :=
  match s.mode with
  | .between => some (stepBetween s.reversed c)
  | .word reversed =>
    if endsWord c then (finishWord reversed s.reversed).map (stepBetween · c)
    else some ⟨.word (c :: reversed), s.reversed⟩
  | .quoted spelled escape => stepQuoted spelled escape s.reversed c

/-- Reads characters one after the other. -/
def scan (s : State) (cs : List Char) : Option State :=
  cs.foldlM step s

/-- The tokens at the end of the text, last first. -/
def finish (s : State) : Option (List Token) :=
  match s.mode with
  | .between => some s.reversed
  | .word reversed => finishWord reversed s.reversed
  | .quoted .. => none

/-- Scanning a text in two parts is scanning it whole. -/
theorem scan_append (s : State) (cs ds : List Char) :
    scan s (cs ++ ds) = (scan s cs).bind (scan · ds) := by
  simp [scan, List.foldlM_append, Option.bind_eq_bind]

end Scanner

/-- The tokens of a text. -/
def Token.ofChars? (cs : List Char) : Option (List Token) :=
  ((Scanner.scan Scanner.start cs).bind Scanner.finish).map List.reverse

end PollScript.Json
