import PollScript.Decimal.Layout

/-!
# Literals and names

The texts that values take in a generated Python script: string literals,
numbers and names. These functions are the only way for a user's text into a
script, so what they write can neither end early nor change its meaning.

Results:

* `nameFragment_isNameChar`: a name fragment holds name characters only.
* `identifier_isName`: the name of a variable is a name.
-/

namespace PollScript.Script

/-! ## Strings -/

/-- A character inside a string literal. Quotes, backslashes and the characters
    that end or align lines are escaped. -/
def quoteChar (c : Char) : List Char :=
  match c with
  | '\\' => ['\\', '\\']
  | '"' => ['\\', '"']
  | '\n' => ['\\', 'n']
  | '\r' => ['\\', 'r']
  | '\t' => ['\\', 't']
  | other => [other]

/-- The inside of a string literal. -/
def quoteChars (cs : List Char) : List Char :=
  cs.flatMap quoteChar

/-- The string literal of a text (`quote`). -/
def quote (text : String) : String :=
  String.ofList (['"'] ++ quoteChars text.toList ++ ['"'])

/-! ## Numbers -/

/-- Whole numbers below this magnitude are written from their exact value. -/
def wholeLimit : Nat := Nat.pow 10 15

/-- The exact value of `significand * 2 ^ exponent`, if it is a whole number
    below the limit. -/
def wholeValue? (significand : Nat) (exponent : Int) : Option Nat :=
  let power := Nat.pow 2 exponent.natAbs
  if 0 ≤ exponent then
    if significand * power < wholeLimit then some (significand * power) else none
  else if significand % power = 0 ∧ significand / power < wholeLimit then
    some (significand / power)
  else none

/-- The characters of a number literal. A whole number is written as such and
    zero has no sign. All other numbers are written as they are displayed. -/
def numberChars : Float.Model.UnpackedFloat → List Char
  | .zero _ => ['0']
  | .finite sign significand exponent positive =>
    match wholeValue? significand exponent with
    | some n => Decimal.signText sign ++ Nat.toDigits 10 n
    | none => Decimal.Layout.plain.chars (.finite sign significand exponent positive)
  | other => Decimal.Layout.plain.chars other

/-- The literal of a number (`number`). -/
def number (x : Float) : String :=
  String.ofList (numberChars x.toModel.unpack)

/-! ## Names -/

/-- The characters that names are made of. -/
def isNameChar (c : Char) : Bool :=
  c.isAlphanum || c == '_'

/-- A character of a name, with an underscore for all that names cannot
    hold. -/
def nameChar (c : Char) : Char :=
  if isNameChar c then c else '_'

/-- A text with an underscore for each character that names cannot hold
    (`name_fragment`). It may stand in a name behind a fixed beginning. -/
def nameFragment (text : String) : String :=
  String.ofList (text.toList.map nameChar)

/-- The words that cannot be names (`PYTHON_KEYWORDS`). -/
def keywords : List String :=
  ["False", "None", "True", "and", "as", "assert", "async", "await", "break", "class",
   "continue", "def", "del", "elif", "else", "except", "finally", "for", "from", "global",
   "if", "import", "in", "is", "lambda", "nonlocal", "not", "or", "pass", "raise", "return",
   "try", "while", "with", "yield"]

/-- Whether a name may not begin like this: with nothing, or with a digit. -/
def startsBadly : List Char → Bool
  | [] => true
  | c :: _ => c.isDigit

/-- The name of a variable (`identifier`). An underscore goes in front of a text
    that is empty or starts with a digit, and one goes behind a keyword. -/
def identifier (text : String) : String :=
  let fragment := nameFragment text
  let name := if startsBadly fragment.toList then "_" ++ fragment else fragment
  if keywords.contains name then name ++ "_" else name

/-- The characters of names are ASCII and stand behind the blanks. -/
theorem range_of_isNameChar {c : Char} (h : isNameChar c = true) :
    48 ≤ c.toNat ∧ c.toNat ≤ 122 := by
  have halphanum : c.isAlphanum = (c.isAlpha || c.isDigit) := rfl
  have halpha : c.isAlpha = (c.isUpper || c.isLower) := rfl
  have hupper : c.isUpper = decide (65 ≤ c.toNat ∧ c.toNat ≤ 90) := rfl
  have hlower : c.isLower = (decide (97 ≤ c.toNat) && decide (c.toNat ≤ 122)) := rfl
  have hdigit : c.isDigit = (decide (48 ≤ c.toNat) && decide (c.toNat ≤ 57)) := rfl
  rw [isNameChar, halphanum, halpha, hupper, hlower, hdigit] at h
  simp only [Bool.or_eq_true, Bool.and_eq_true, decide_eq_true_eq, beq_iff_eq] at h
  rcases h with ((h | h) | h) | rfl
  · omega
  · omega
  · omega
  · decide

/-- A name fragment holds name characters only. -/
theorem nameFragment_isNameChar (text : String) :
    ∀ c ∈ (nameFragment text).toList, isNameChar c = true := by
  intro c hc
  simp only [nameFragment, String.toList_ofList, List.mem_map] at hc
  obtain ⟨d, -, rfl⟩ := hc
  by_cases h : isNameChar d = true
  · simp [nameChar, h]
  · have : nameChar d = '_' := by simp [nameChar, h]
    rw [this]; decide

/-- No keyword ends in an underscore. -/
theorem underscore_notMem_keywords {name : String} (h : name ∈ keywords) :
    name ++ "_" ∉ keywords := by
  revert name
  decide

/-- The name of a variable holds name characters only, does not begin with a digit
    and is no keyword. -/
theorem identifier_isName (text : String) :
    (∀ c ∈ (identifier text).toList, isNameChar c = true) ∧
      startsBadly (identifier text).toList = false ∧ identifier text ∉ keywords := by
  have hfragment := nameFragment_isNameChar text
  obtain ⟨name, hchars, hstart, hname⟩ : ∃ name : String,
      (∀ c ∈ name.toList, isNameChar c = true) ∧ startsBadly name.toList = false ∧
      identifier text = if keywords.contains name then name ++ "_" else name := by
    refine ⟨if startsBadly (nameFragment text).toList then "_" ++ nameFragment text
      else nameFragment text, ?_, ?_, rfl⟩
    · intro c hc
      split at hc
      · rw [String.toList_append] at hc
        rcases List.mem_append.mp hc with hc | hc
        · obtain rfl := List.mem_singleton.mp hc
          rfl
        · exact hfragment c hc
      · exact hfragment c hc
    · split
      · rw [String.toList_append]
        rfl
      · next hbad => exact eq_false_of_ne_true hbad
  rw [hname]
  split
  · next hkeyword =>
    refine ⟨fun c hc => ?_, ?_, underscore_notMem_keywords (List.contains_iff_mem.mp hkeyword)⟩
    · rw [String.toList_append] at hc
      rcases List.mem_append.mp hc with hc | hc
      · exact hchars c hc
      · obtain rfl := List.mem_singleton.mp hc
        rfl
    · rw [String.toList_append]
      cases hlist : name.toList with
      | nil => rw [hlist] at hstart; cases hstart
      | cons c cs => rw [hlist] at hstart; exact hstart
  · next hkeyword => exact ⟨hchars, hstart, fun hmem => hkeyword (List.contains_iff_mem.mpr hmem)⟩

end PollScript.Script
