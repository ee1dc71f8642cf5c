/-!
# Blank characters

The characters with the Unicode property `White_Space`, and trimming by them.
Generated code is cut and trimmed by this class, so it is a table of its own:
the class of the core library knows only the ASCII blanks.

Results:

* `trimEnd_append_blank`: blanks at the end do not show after trimming.
-/

namespace PollScript.Text

/-- The code point ranges of the Unicode property `White_Space`, both ends
    included, in ascending order. -/
def blankRanges : List (Nat × Nat) :=
  [(0x9, 0xD), (0x20, 0x20), (0x85, 0x85), (0xA0, 0xA0), (0x1680, 0x1680),
   (0x2000, 0x200A), (0x2028, 0x2029), (0x202F, 0x202F), (0x205F, 0x205F),
   (0x3000, 0x3000)]

/-- A character is blank when one of the ranges holds its code point. -/
def isBlank (c : Char) : Bool :=
  blankRanges.any fun range => range.1 ≤ c.toNat && c.toNat ≤ range.2

/-! ## Trimming -/

/-- The text without the characters at its end that are in the class `p`. -/
def dropEndWhile (p : Char → Bool) (cs : List Char) : List Char :=
  (cs.reverse.dropWhile p).reverse

/-- The text without the characters at either end that are in the class `p`. -/
def stripWhile (p : Char → Bool) (cs : List Char) : List Char :=
  dropEndWhile p (cs.dropWhile p)

/-- The text without the blanks at its end. -/
def trimEnd (cs : List Char) : List Char :=
  dropEndWhile isBlank cs

/-- The text without the blanks at either end. -/
def trim (cs : List Char) : List Char :=
  stripWhile isBlank cs

/-- The text without the line feeds at either end. -/
def trimLineFeeds (cs : List Char) : List Char :=
  stripWhile (· == '\n') cs

/-- A text is blank when each of its characters is; the empty text is. -/
def allBlank (cs : List Char) : Bool :=
  cs.all isBlank

/-- Blanks at the end do not show after trimming. -/
theorem trimEnd_append_blank (cs blanks : List Char) (h : allBlank blanks = true) :
    trimEnd (cs ++ blanks) = trimEnd cs := by
  have drop : ∀ (bs rest : List Char), (∀ b ∈ bs, isBlank b = true) →
      (bs ++ rest).dropWhile isBlank = rest.dropWhile isBlank := by
    intro bs rest hb
    induction bs with
    | nil => rfl
    | cons b bs ih => simp_all
  simp only [trimEnd, dropEndWhile, List.reverse_append]
  rw [drop]
  simpa [allBlank] using h

end PollScript.Text
