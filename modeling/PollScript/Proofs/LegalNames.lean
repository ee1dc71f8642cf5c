import PollScript.Script.Literal

/-!
# Names of variables

A legal name is made of ASCII letters, digits and underscores, has at least one character,
does not begin with a digit and is no keyword. The text of a variable is repaired in three
steps: other characters become underscores, an underscore goes in front of what is empty or
begins with a digit, and one goes behind a keyword. No step undoes what an earlier one did,
and none of them touches a legal name. So the repair ends in the legal names and leaves them
as they are.

Results:

* `isLegalName_iff`: the legal names by the tests that the repair makes.
* `identifier_of_isLegalName`: a legal name is left as it is.
* `identifier_retraction`: the repair gives legal names only, a second one changes nothing,
  and the texts that it leaves as they are are the legal names.
-/

namespace PollScript.Script

/-- The letters of ASCII. -/
def IsAsciiLetter (c : Char) : Prop :=
  ('a' ≤ c ∧ c ≤ 'z') ∨ ('A' ≤ c ∧ c ≤ 'Z')

/-- The digits of ASCII. -/
def IsAsciiDigit (c : Char) : Prop :=
  '0' ≤ c ∧ c ≤ '9'

/-- A name that a variable may have. -/
structure IsLegalName (name : String) : Prop where
  nonempty : name ≠ ""
  chars : ∀ c ∈ name.toList, IsAsciiLetter c ∨ IsAsciiDigit c ∨ c = '_'
  first : ∀ c, name.toList.head? = some c → ¬IsAsciiDigit c
  unreserved : name ∉ keywords

/-! ## Characters -/

theorem isDigit_iff (c : Char) : c.isDigit = true ↔ IsAsciiDigit c := by
  have hdigit : c.isDigit = (decide ('0' ≤ c) && decide (c ≤ '9')) := rfl
  rw [hdigit, Bool.and_eq_true, decide_eq_true_eq, decide_eq_true_eq]
  rfl

theorem isAlpha_iff (c : Char) : c.isAlpha = true ↔ IsAsciiLetter c := by
  have halpha : c.isAlpha = (c.isUpper || c.isLower) := rfl
  have hupper : c.isUpper = decide ('A' ≤ c ∧ c ≤ 'Z') := rfl
  have hlower : c.isLower = (decide ('a' ≤ c) && decide (c ≤ 'z')) := rfl
  rw [halpha, Bool.or_eq_true, hupper, hlower, Bool.and_eq_true]
  simp only [decide_eq_true_eq]
  exact or_comm

theorem isNameChar_iff (c : Char) :
    isNameChar c = true ↔ IsAsciiLetter c ∨ IsAsciiDigit c ∨ c = '_' := by
  rw [isNameChar, Char.isAlphanum, Bool.or_eq_true, Bool.or_eq_true, isAlpha_iff, isDigit_iff,
    beq_iff_eq, or_assoc]

/-! ## Names -/

theorem startsBadly_eq_false {cs : List Char} :
    startsBadly cs = false ↔ cs ≠ [] ∧ ∀ c, cs.head? = some c → ¬IsAsciiDigit c := by
  cases cs with
  | nil => simp [startsBadly]
  | cons c cs => simp [startsBadly, ← isDigit_iff]

/-- The legal names by the tests that the repair of a name makes. -/
theorem isLegalName_iff {name : String} :
    IsLegalName name ↔ (∀ c ∈ name.toList, isNameChar c = true) ∧
      startsBadly name.toList = false ∧ name ∉ keywords := by
  simp only [isNameChar_iff, startsBadly_eq_false, ne_eq, String.toList_eq_nil_iff]
  constructor
  · rintro ⟨hnonempty, hchars, hfirst, hunreserved⟩
    exact ⟨hchars, ⟨hnonempty, hfirst⟩, hunreserved⟩
  · rintro ⟨hchars, ⟨hnonempty, hfirst⟩, hunreserved⟩
    exact ⟨hnonempty, hchars, hfirst, hunreserved⟩

theorem isLegalName_identifier (text : String) : IsLegalName (identifier text) :=
  isLegalName_iff.mpr (identifier_isName text)

/-- A text of name characters is a name fragment as it is. -/
theorem nameFragment_of_isNameChar {text : String} (h : ∀ c ∈ text.toList, isNameChar c = true) :
    nameFragment text = text := by
  have hmap : text.toList.map nameChar = text.toList.map id :=
    List.map_congr_left fun c hc => if_pos (h c hc)
  rw [nameFragment, hmap, List.map_id, String.ofList_toList]

/-- A legal name is left as it is. -/
theorem identifier_of_isLegalName {name : String} (h : IsLegalName name) :
    identifier name = name := by
  obtain ⟨hchars, hstart, hunreserved⟩ := isLegalName_iff.mp h
  have hkeyword : keywords.contains name = false := by simpa using hunreserved
  unfold identifier
  simp only [nameFragment_of_isNameChar hchars, hstart, hkeyword, Bool.false_eq_true, if_false]

/-- The repair of a text gives a legal name, which a second repair leaves as it is. The texts
    that are left as they are are the legal names. -/
theorem identifier_retraction :
    (∀ text, IsLegalName (identifier text)) ∧
      (∀ text, identifier (identifier text) = identifier text) ∧
      ∀ text, identifier text = text ↔ IsLegalName text := by
  refine ⟨isLegalName_identifier, fun text => ?_, fun text => ?_⟩
  · exact identifier_of_isLegalName (isLegalName_identifier text)
  · constructor
    · intro h
      rw [← h]
      exact isLegalName_identifier text
    · exact identifier_of_isLegalName

end PollScript.Script
