import PollScript.Json.Tree
import PollScript.Proofs.Numerals

/-!
# The grammar of JSON texts

Which texts spell a JSON tree, by the grammar of JSON: any blanks around each
value, key and punctuation mark, any legal escape for a character of a string,
and any legal way to write a number. What a string means is given by UTF-16:
characters beyond the basic plane are escaped as a pair of surrogates, and a
string with half of a pair in it means nothing.

The scanner and the builder work on one character and one token at a time. They
follow every derivation of the grammar to its end, so each text that spells a
tree is read as that tree.

Results:

* `spelledChars?_eq_some_iff`: which text the pieces of a string mean.
* `Number.ofChars?_of_spelled`: a number is read as it is spelled.
* `Tree.Written.reads`: the scanner and the builder follow the grammar.
* `Tree.read?_of_spelled`: a text that spells a tree is read as the tree.
-/

namespace PollScript.Json

/-! ## Strings -/

/-- What the pieces of a string mean. A character beyond the basic plane is
    escaped as two UTF-16 units. -/
inductive Means : List Spelling → List Char → Prop where
  | nil : Means [] []
  | char (c : Char) {pieces : List Spelling} {cs : List Char} (rest : Means pieces cs) :
      Means (.char c :: pieces) (c :: cs)
  /-- A character of the basic plane. -/
  | unit (c : Char) {pieces : List Spelling} {cs : List Char} (basic : c.toNat < 0x10000)
      (rest : Means pieces cs) : Means (.unit c.toNat :: pieces) (c :: cs)
  /-- Any other character. -/
  | pair (c : Char) {pieces : List Spelling} {cs : List Char} (beyond : 0x10000 ≤ c.toNat)
      (rest : Means pieces cs) :
      Means (.unit (0xD800 + (c.toNat - 0x10000) / 0x400) ::
        .unit (0xDC00 + (c.toNat - 0x10000) % 0x400) :: pieces) (c :: cs)

theorem valid_char (c : Char) :
    c.toNat < 0xD800 ∨ 0xDFFF < c.toNat ∧ c.toNat < 0x110000 :=
  c.valid

/-- No character is a surrogate. -/
theorem not_surrogate {n : Nat} (valid : n.isValidChar) :
    isHighSurrogate n = false ∧ isLowSurrogate n = false := by
  simp only [Nat.isValidChar] at valid
  simp only [isHighSurrogate, isLowSurrogate, Bool.and_eq_false_iff, decide_eq_false_iff_not]
  omega

theorem toNat_ofNat {n : Nat} (valid : n.isValidChar) : (Char.ofNat n).toNat = n := by
  rw [Char.ofNat, dif_pos valid]
  rfl

theorem spelledChars?_unit {n : Nat} (high : isHighSurrogate n = false)
    (low : isLowSurrogate n = false) (pieces : List Spelling) :
    spelledChars? (.unit n :: pieces) = (spelledChars? pieces).map (Char.ofNat n :: ·) := by
  cases pieces with
  | nil => simp [spelledChars?, high, low]
  | cons piece rest => cases piece <;> simp [spelledChars?, high, low]

theorem spelledChars?_pair {high low : Nat} (hhigh : isHighSurrogate high = true)
    (hlow : isLowSurrogate low = true) (pieces : List Spelling) :
    spelledChars? (.unit high :: .unit low :: pieces) =
      (spelledChars? pieces).map
        (Char.ofNat (0x10000 + (high - 0xD800) * 0x400 + (low - 0xDC00)) :: ·) := by
  simp [spelledChars?, hhigh, hlow]

/-- The two halves of a character beyond the basic plane. -/
theorem surrogates_of_char {n : Nat} (beyond : 0x10000 ≤ n) (valid : n < 0x110000) :
    isHighSurrogate (0xD800 + (n - 0x10000) / 0x400) = true ∧
      isLowSurrogate (0xDC00 + (n - 0x10000) % 0x400) = true ∧
      0x10000 + (0xD800 + (n - 0x10000) / 0x400 - 0xD800) * 0x400 +
        (0xDC00 + (n - 0x10000) % 0x400 - 0xDC00) = n := by
  simp only [isHighSurrogate, isLowSurrogate, Bool.and_eq_true, decide_eq_true_eq]
  omega

theorem Means.spelledChars? {pieces : List Spelling} {cs : List Char} (h : Means pieces cs) :
    Json.spelledChars? pieces = some cs := by
  induction h with
  | nil => rfl
  | char c _ ih => simp [Json.spelledChars?, ih]
  | unit c _ _ ih =>
    obtain ⟨high, low⟩ := not_surrogate (show c.toNat.isValidChar from c.valid)
    rw [spelledChars?_unit high low, ih, Char.ofNat_toNat]
    rfl
  | pair c beyond _ ih =>
    obtain ⟨high, low, sum⟩ := surrogates_of_char beyond (by have := valid_char c; omega)
    rw [spelledChars?_pair high low, ih, sum, Char.ofNat_toNat]
    rfl

/-- The halves of a pair are those of the character that they stand for. -/
theorem means_pair {high low : Nat} (hhigh : isHighSurrogate high = true)
    (hlow : isLowSurrogate low = true) {pieces : List Spelling} {cs : List Char}
    (rest : Means pieces cs) :
    Means (.unit high :: .unit low :: pieces)
      (Char.ofNat (0x10000 + (high - 0xD800) * 0x400 + (low - 0xDC00)) :: cs) := by
  simp only [isHighSurrogate, isLowSurrogate, Bool.and_eq_true, decide_eq_true_eq] at hhigh hlow
  have valid : (0x10000 + (high - 0xD800) * 0x400 + (low - 0xDC00)).isValidChar := by
    simp only [Nat.isValidChar]
    omega
  have code := toNat_ofNat valid
  generalize Char.ofNat (0x10000 + (high - 0xD800) * 0x400 + (low - 0xDC00)) = c at code ⊢
  have first : high = 0xD800 + (c.toNat - 0x10000) / 0x400 := by omega
  have second : low = 0xDC00 + (c.toNat - 0x10000) % 0x400 := by omega
  rw [first, second]
  exact .pair c (by omega) rest

theorem means_unit {n : Nat} (basic : n < 0x10000) (hhigh : isHighSurrogate n = false)
    (hlow : isLowSurrogate n = false) {pieces : List Spelling} {cs : List Char}
    (rest : Means pieces cs) : Means (.unit n :: pieces) (Char.ofNat n :: cs) := by
  simp only [isHighSurrogate, isLowSurrogate, Bool.and_eq_false_iff,
    decide_eq_false_iff_not] at hhigh hlow
  have valid : n.isValidChar := by
    simp only [Nat.isValidChar]
    omega
  have code := toNat_ofNat valid
  have unit := Means.unit (Char.ofNat n) (by omega) rest
  rwa [code] at unit

theorem means_of_spelledChars? {pieces : List Spelling} {cs : List Char}
    (units : ∀ n, .unit n ∈ pieces → n < 0x10000) (h : spelledChars? pieces = some cs) :
    Means pieces cs := by
  -- The cases are those of the reader: a unit may begin a pair, or it is alone.
  induction pieces using spelledChars?.induct generalizing cs with
  | case1 => cases h; exact .nil
  | case2 c rest ih =>
    rw [spelledChars?] at h
    obtain ⟨tail, htail, rfl⟩ := Option.map_eq_some_iff.mp h
    exact .char c (ih (fun n hn => units n (by simp [hn])) htail)
  | case3 high low rest hhigh hlow ih =>
    rw [spelledChars?_pair hhigh hlow] at h
    obtain ⟨tail, htail, rfl⟩ := Option.map_eq_some_iff.mp h
    exact means_pair hhigh hlow (ih (fun n hn => units n (by simp [hn])) htail)
  | case4 high low rest hhigh hlow => simp [spelledChars?, hhigh, hlow] at h
  | case5 high low rest hhigh hlow => simp [spelledChars?, hhigh, hlow] at h
  | case6 high low rest hhigh hlow ih =>
    rw [spelledChars?_unit (by simpa using hhigh) (by simpa using hlow)] at h
    obtain ⟨tail, htail, rfl⟩ := Option.map_eq_some_iff.mp h
    exact means_unit (units high (by simp)) (by simpa using hhigh) (by simpa using hlow)
      (ih (fun n hn => units n (List.mem_cons_of_mem _ hn)) htail)
  | case7 n rest alone hsurrogate =>
    rw [spelledChars?.eq_4 _ _ alone, if_pos hsurrogate] at h
    cases h
  | case8 n rest alone hsurrogate ih =>
    simp only [Bool.or_eq_true, not_or, Bool.not_eq_true] at hsurrogate
    rw [spelledChars?_unit hsurrogate.1 hsurrogate.2] at h
    obtain ⟨tail, htail, rfl⟩ := Option.map_eq_some_iff.mp h
    exact means_unit (units n (by simp)) hsurrogate.1 hsurrogate.2
      (ih (fun n hn => units n (List.mem_cons_of_mem _ hn)) htail)

/-- The reader finds the text that the pieces mean, and none if they mean none. -/
theorem spelledChars?_eq_some_iff {pieces : List Spelling} {cs : List Char}
    (units : ∀ n, .unit n ∈ pieces → n < 0x10000) :
    spelledChars? pieces = some cs ↔ Means pieces cs :=
  ⟨means_of_spelledChars? units, Means.spelledChars?⟩

/-! ## Scalars as written -/

/-- The letters after a backslash, each with the character that it stands for. -/
def shortEscapes : List (Char × Char) :=
  [('"', '"'), ('\\', '\\'), ('/', '/'), ('b', '\x08'), ('f', '\x0c'), ('n', '\n'),
   ('r', '\r'), ('t', '\t')]

/-- The character is the hexadecimal digit of the value, in either case. -/
def HexDigit (c : Char) (value : Nat) : Prop :=
  "0123456789abcdef".toList[value]? = some c ∨ "0123456789ABCDEF".toList[value]? = some c

/-- How a piece of a string is written. -/
inductive Piece : Spelling → List Char → Prop where
  /-- A character as such, if it is neither a quote, a backslash nor a control
      character. -/
  | plain {c : Char} (quote : c ≠ '"') (backslash : c ≠ '\\') (control : 0x20 ≤ c.toNat) :
      Piece (.char c) [c]
  | short {mark c : Char} (escape : (mark, c) ∈ shortEscapes) : Piece (.char c) ['\\', mark]
  | unit {a b c d : Char} {p q r s : Nat} (first : HexDigit a p) (second : HexDigit b q)
      (third : HexDigit c r) (fourth : HexDigit d s) :
      Piece (.unit (16 * (16 * (16 * p + q) + r) + s)) ['\\', 'u', a, b, c, d]

/-- How the inside of a string is written. -/
inductive Pieces : List Spelling → List Char → Prop where
  | nil : Pieces [] []
  | cons {piece : Spelling} {pieces : List Spelling} {cs more : List Char}
      (first : Piece piece cs) (rest : Pieces pieces more) :
      Pieces (piece :: pieces) (cs ++ more)

/-- Whether the pieces mean the text, or nothing if there is none. -/
def Content (pieces : List Spelling) : Option String → Prop
  | some s => Means pieces s.toList
  | none => ∀ cs, ¬ Means pieces cs

/-- How a string is written. -/
def Quoted (content : Option String) (cs : List Char) : Prop :=
  ∃ pieces body, Content pieces content ∧ Pieces pieces body ∧ cs = '"' :: body ++ ['"']

/-- How the fraction of a number is written. -/
inductive Fraction : Option (List Char) → List Char → Prop where
  | absent : Fraction none []
  | digits {ds : List Char} (digits : isDigits ds = true) : Fraction (some ds) ('.' :: ds)

/-- How the exponent of a number is written. -/
inductive Exponent : Option Int → List Char → Prop where
  | absent : Exponent none []
  | unsigned {mark : Char} {ds : List Char} (letter : mark = 'e' ∨ mark = 'E')
      (digits : isDigits ds = true) : Exponent (some (Nat.ofDigitChars 10 ds 0)) (mark :: ds)
  | plus {mark : Char} {ds : List Char} (letter : mark = 'e' ∨ mark = 'E')
      (digits : isDigits ds = true) :
      Exponent (some (Nat.ofDigitChars 10 ds 0)) (mark :: '+' :: ds)
  | minus {mark : Char} {ds : List Char} (letter : mark = 'e' ∨ mark = 'E')
      (digits : isDigits ds = true) :
      Exponent (some (-(Nat.ofDigitChars 10 ds 0 : Int))) (mark :: '-' :: ds)

/-- How a number is written: a minus if there is one, digits without a leading
    zero, a fraction and an exponent. -/
inductive Number.Written : Number → List Char → Prop where
  | parts {negative : Bool} {whole fraction exponent : List Char} {f : Option (List Char)}
      {e : Option Int} (digits : isDigits whole = true)
      (lead : whole = ['0'] ∨ whole.head? ≠ some '0') (hfraction : Fraction f fraction)
      (hexponent : Exponent e exponent) :
      Written ⟨negative, ⟨whole, f, e⟩⟩
        ((if negative then ['-'] else []) ++ whole ++ fraction ++ exponent)

/-- How a scalar is written. -/
inductive Scalar.Written : Scalar → List Char → Prop where
  | null : Written .null "null".toList
  | true : Written (.bool Bool.true) "true".toList
  | false : Written (.bool Bool.false) "false".toList
  | number {n : Number} {cs : List Char} (h : n.Written cs) : Written (.number n) cs
  | text {content : Option String} {cs : List Char} (h : Quoted content cs) :
      Written (.text content) cs

/-! ## Trees as written -/

/-- Blanks around values, keys and punctuation marks. -/
def Blanks (cs : List Char) : Prop :=
  ∀ c ∈ cs, c = ' ' ∨ c = '\t' ∨ c = '\n' ∨ c = '\r'

namespace Tree

mutual

/-- How a tree is written. -/
inductive Written : Tree → List Char → Prop where
  | scalar {s : Scalar} {cs : List Char} (h : s.Written cs) : Written (.scalar s) cs
  | emptyArray {blank : List Char} (h : Blanks blank) : Written (.array []) ('[' :: blank ++ [']'])
  | array {items : List Tree} {cs : List Char} (h : WrittenItems items cs) :
      Written (.array items) ('[' :: cs ++ [']'])
  | emptyObject {blank : List Char} (h : Blanks blank) :
      Written (.object []) ('\x7b' :: blank ++ ['\x7d'])
  | object {members : List (Option String × Tree)} {cs : List Char}
      (h : WrittenMembers members cs) : Written (.object members) ('\x7b' :: cs ++ ['\x7d'])

/-- How a tree is written with blanks around it. -/
inductive Surrounded : Tree → List Char → Prop where
  | blanks {t : Tree} {front cs back : List Char} (hfront : Blanks front) (h : Written t cs)
      (hback : Blanks back) : Surrounded t (front ++ cs ++ back)

/-- How the items of an array are written. -/
inductive WrittenItems : List Tree → List Char → Prop where
  | last {t : Tree} {cs : List Char} (h : Surrounded t cs) : WrittenItems [t] cs
  | cons {t : Tree} {items : List Tree} {cs more : List Char} (h : Surrounded t cs)
      (rest : WrittenItems items more) : WrittenItems (t :: items) (cs ++ ',' :: more)

/-- How a member of an object is written. -/
inductive WrittenMember : Option String × Tree → List Char → Prop where
  | colon {key : Option String} {t : Tree} {front name back cs : List Char}
      (hfront : Blanks front) (hname : Quoted key name) (hback : Blanks back)
      (h : Surrounded t cs) : WrittenMember (key, t) (front ++ name ++ back ++ ':' :: cs)

/-- How the members of an object are written. -/
inductive WrittenMembers : List (Option String × Tree) → List Char → Prop where
  | last {member : Option String × Tree} {cs : List Char} (h : WrittenMember member cs) :
      WrittenMembers [member] cs
  | cons {member : Option String × Tree} {members : List (Option String × Tree)}
      {cs more : List Char} (h : WrittenMember member cs) (rest : WrittenMembers members more) :
      WrittenMembers (member :: members) (cs ++ ',' :: more)

end

end Tree

/-! ## Reading scalars -/

theorem HexDigit.hexValue? {c : Char} {value : Nat} (h : HexDigit c value) :
    Json.hexValue? c = some value ∧ value < 16 := by
  have lower : ∀ v : Fin 16, Json.hexValue? "0123456789abcdef".toList[v] = some v.val := by decide
  have upper : ∀ v : Fin 16, Json.hexValue? "0123456789ABCDEF".toList[v] = some v.val := by decide
  rcases h with h | h <;> obtain ⟨hlt, rfl⟩ := List.getElem?_eq_some_iff.mp h
  · exact ⟨lower ⟨value, hlt⟩, hlt⟩
  · exact ⟨upper ⟨value, hlt⟩, hlt⟩

theorem shortEscape?_of_mem :
    ∀ escape ∈ shortEscapes, escape.1 ≠ 'u' ∧ shortEscape? escape.1 = some escape.2 := by
  decide

theorem Pieces.units {pieces : List Spelling} {cs : List Char} (h : Pieces pieces cs) :
    ∀ n, .unit n ∈ pieces → n < 0x10000 := by
  induction h with
  | nil => nofun
  | cons first _ ih =>
    intro n hn
    rcases List.mem_cons.mp hn with rfl | hn
    · cases first with
      | unit first second third fourth =>
        have := first.hexValue?.2
        have := second.hexValue?.2
        have := third.hexValue?.2
        have := fourth.hexValue?.2
        omega
    · exact ih n hn

/-- The reader finds the content of a string. -/
theorem Content.text {pieces : List Spelling} {content : Option String}
    (units : ∀ n, .unit n ∈ pieces → n < 0x10000) (h : Content pieces content) :
    (spelledChars? pieces).map String.ofList = content := by
  cases content with
  | none =>
    rw [Option.map_eq_none_iff, Option.eq_none_iff_forall_ne_some]
    exact fun cs hcs => h cs (means_of_spelledChars? units hcs)
  | some s => rw [Means.spelledChars? h, Option.map_some, String.ofList_toList]

namespace Scanner

/-- A piece of a string is read as what is spelled there. -/
theorem scan_piece {piece : Spelling} {cs : List Char} (h : Piece piece cs)
    (spelled : List Spelling) (tokens : List Token) :
    scan ⟨.quoted spelled .idle, tokens⟩ cs =
      some ⟨.quoted (piece :: spelled) .idle, tokens⟩ := by
  cases h with
  | plain quote backslash control =>
    simp [scan, step, stepQuoted, quote, backslash, Nat.not_lt.mpr control]
  | short escape =>
    obtain ⟨letter, hescape⟩ := shortEscape?_of_mem _ escape
    simp [scan, step, stepQuoted, letter, hescape]
  | unit first second third fourth =>
    simp [scan, step, stepQuoted, first.hexValue?.1, second.hexValue?.1, third.hexValue?.1,
      fourth.hexValue?.1]

theorem scan_pieces {pieces : List Spelling} {cs : List Char} (h : Pieces pieces cs)
    (spelled : List Spelling) (tokens : List Token) :
    scan ⟨.quoted spelled .idle, tokens⟩ cs =
      some ⟨.quoted (pieces.reverse ++ spelled) .idle, tokens⟩ := by
  induction h generalizing spelled with
  | nil => rfl
  | cons first _ ih => simp [scan_append, scan_piece first, ih]

/-- A string is read as a token. -/
theorem scan_quoted {content : Option String} {cs : List Char} (h : Quoted content cs)
    (tokens : List Token) :
    scan ⟨.between, tokens⟩ cs = some ⟨.between, .scalar (.text content) :: tokens⟩ := by
  obtain ⟨pieces, body, hcontent, hpieces, rfl⟩ := h
  have opened : scan ⟨.between, tokens⟩ ['"'] = some ⟨.quoted [] .idle, tokens⟩ := rfl
  have closed : scan ⟨.quoted pieces.reverse .idle, tokens⟩ ['"'] =
      some ⟨.between, finishString pieces.reverse tokens⟩ := rfl
  rw [List.cons_append, ← List.singleton_append, scan_append, opened, Option.bind_some, scan_append,
    scan_pieces hpieces, List.append_nil, Option.bind_some, closed, finishString,
    List.reverse_reverse, hcontent.text hpieces.units]

end Scanner

/-! ## Reading numbers and names -/

theorem digitRun?_digits {ds : List Char} (digits : isDigits ds = true) :
    Decimal.digitRun? ds = some (Nat.ofDigitChars 10 ds 0) := by
  obtain ⟨nonempty, all⟩ := isDigits_iff.mp digits
  rw [Decimal.digitRun?, if_pos ⟨nonempty, List.all_eq_true.mpr all⟩]

theorem splitSign_digits {ds : List Char} (digits : isDigits ds = true) :
    Decimal.splitSign ds = (false, ds) := by
  obtain ⟨-, all⟩ := isDigits_iff.mp digits
  unfold Decimal.splitSign
  split
  · exact absurd (all '-' (by simp)) (by decide)
  · exact absurd (all '+' (by simp)) (by decide)
  · rfl

/-- An exponent is read as it is written. -/
theorem Exponent.exponent? {e : Option Int} {cs : List Char} (h : Exponent e cs) :
    Decimal.Numeral.exponent? cs = some e := by
  cases h with
  | absent => rfl
  | unsigned letter digits =>
    simp [Decimal.Numeral.exponent?, letter, splitSign_digits digits, digitRun?_digits digits]
  | plus letter digits =>
    simp [Decimal.Numeral.exponent?, letter, Decimal.splitSign, digitRun?_digits digits]
  | minus letter digits =>
    simp [Decimal.Numeral.exponent?, letter, Decimal.splitSign, digitRun?_digits digits]

/-- An exponent does not begin like a fraction or more digits. -/
theorem Exponent.apart {e : Option Int} {cs : List Char} (h : Exponent e cs) {c : Char}
    (head : cs.head? = some c) : c = 'e' ∨ c = 'E' := by
  cases h with
  | absent => cases head
  | unsigned letter _ => exact Option.some.inj head ▸ letter
  | plus letter _ => exact Option.some.inj head ▸ letter
  | minus letter _ => exact Option.some.inj head ▸ letter

theorem isDigit_of_letter {c : Char} (h : c = 'e' ∨ c = 'E') : c.isDigit = false := by
  rcases h with rfl | rfl <;> decide

/-- The parts of a numeral are told apart. -/
theorem ofChars?_parts {whole fraction exponent : List Char} {f : Option (List Char)}
    {e : Option Int} (digits : isDigits whole = true) (hfraction : Fraction f fraction)
    (hexponent : Exponent e exponent) :
    Decimal.Numeral.ofChars? (whole ++ (fraction ++ exponent)) = some ⟨whole, f, e⟩ := by
  have ends : ∀ c, exponent.head? = some c → c.isDigit = false :=
    fun c hc => isDigit_of_letter (hexponent.apart hc)
  cases hfraction with
  | absent =>
    obtain ⟨htake, hdrop⟩ := takeWhile_digits digits _ ends
    rw [List.nil_append, Decimal.Numeral.ofChars?, htake, hdrop]
    split
    · next rest => exact absurd (hexponent.apart rfl) (by decide)
    · simp [hexponent.exponent?]
  | @digits ds hds =>
    obtain ⟨htake, hdrop⟩ := takeWhile_digits digits ('.' :: (ds ++ exponent))
      fun c hc => by cases hc; decide
    obtain ⟨htake', hdrop'⟩ := takeWhile_digits hds _ ends
    rw [List.cons_append, Decimal.Numeral.ofChars?, htake, hdrop]
    simp [htake', hdrop', hexponent.exponent?]

/-- A number is read as it is written. -/
theorem Number.Written.ofChars? {n : Number} {cs : List Char} (h : n.Written cs) :
    Number.ofChars? cs = some n := by
  cases h with
  | @parts negative whole fraction exponent f e digits lead hfraction hexponent =>
    have strict : strictNumeral ⟨whole, f, e⟩ = true := by
      have nonempty := (isDigits_iff.mp digits).1
      have fraction : f ≠ some [] := by
        cases hfraction with
        | absent => nofun
        | digits hds => simpa using (isDigits_iff.mp hds).1
      simp [strictNumeral, nonempty, fraction, lead]
    have numeral := ofChars?_parts digits hfraction hexponent
    cases negative with
    | true => simp [Number.ofChars?, numeral, strict]
    | false =>
      cases whole with
      | nil => cases digits
      | cons d ds =>
        have unsigned : d ≠ '-' := by
          rintro rfl
          exact absurd ((isDigits_iff.mp digits).2 '-' (by simp)) (by decide)
        rw [List.cons_append] at numeral
        simp [Number.ofChars?, unsigned, numeral, strict]

/-! ## Reading words -/

/-- The characters that end a word. -/
def delimiters : List Char :=
  [' ', '\t', '\n', '\r', '"', '[', ']', '\x7b', '\x7d', ',', ':']

/-- The characters of numbers. -/
def IsNumberChar (c : Char) : Prop :=
  c.isDigit = true ∨ c ∈ ['-', '+', '.', 'e', 'E']

theorem isNumberChar_digits {ds : List Char} (digits : isDigits ds = true) :
    ∀ c ∈ ds, IsNumberChar c :=
  fun c hc => .inl ((isDigits_iff.mp digits).2 c hc)

theorem isNumberChar_letter {c : Char} (letter : c = 'e' ∨ c = 'E') : IsNumberChar c := by
  rcases letter with rfl | rfl <;> exact .inr (by simp)

theorem Fraction.chars {f : Option (List Char)} {cs : List Char} (h : Fraction f cs) :
    ∀ c ∈ cs, IsNumberChar c := by
  cases h with
  | absent => nofun
  | digits hds => exact List.forall_mem_cons.mpr ⟨.inr (by simp), isNumberChar_digits hds⟩

theorem Exponent.chars {e : Option Int} {cs : List Char} (h : Exponent e cs) :
    ∀ c ∈ cs, IsNumberChar c := by
  cases h with
  | absent => nofun
  | unsigned letter digits =>
    exact List.forall_mem_cons.mpr ⟨isNumberChar_letter letter, isNumberChar_digits digits⟩
  | plus letter digits =>
    exact List.forall_mem_cons.mpr ⟨isNumberChar_letter letter,
      List.forall_mem_cons.mpr ⟨.inr (by simp), isNumberChar_digits digits⟩⟩
  | minus letter digits =>
    exact List.forall_mem_cons.mpr ⟨isNumberChar_letter letter,
      List.forall_mem_cons.mpr ⟨.inr (by simp), isNumberChar_digits digits⟩⟩

theorem Number.Written.chars {n : Number} {cs : List Char} (h : n.Written cs) :
    ∀ c ∈ cs, IsNumberChar c := by
  cases h with
  | @parts negative whole fraction exponent f e digits lead hfraction hexponent =>
    simp only [List.forall_mem_append]
    refine ⟨⟨⟨?_, isNumberChar_digits digits⟩, hfraction.chars⟩, hexponent.chars⟩
    cases negative with
    | true => exact List.forall_mem_cons.mpr ⟨.inr (by simp), nofun⟩
    | false => nofun

theorem Number.Written.ne_nil {n : Number} {cs : List Char} (h : n.Written cs) : cs ≠ [] := by
  cases h with
  | parts digits => simp [(isDigits_iff.mp digits).1]

/-- The characters of a number do not end a word. -/
theorem endsWord_number {c : Char} (h : IsNumberChar c) : Scanner.endsWord c = false := by
  have delimiter (hends : Scanner.endsWord c = true) : c ∈ delimiters := by
    simp only [Scanner.endsWord, isJsonBlank, Bool.or_eq_true, beq_iff_eq] at hends
    rcases hends with (hblank | hquote) | hpunctuation
    · rcases hblank with ((rfl | rfl) | rfl) | rfl <;> decide
    · rw [hquote]
      decide
    · unfold Token.ofPunctuation? at hpunctuation
      split at hpunctuation <;> first | decide | cases hpunctuation
  rcases Bool.eq_false_or_eq_true (Scanner.endsWord c) with hends | hends
  · exfalso
    have apart : ∀ c ∈ delimiters, ¬ IsNumberChar c := by
      simp [delimiters, IsNumberChar]
    exact apart c (delimiter hends) h
  · exact hends

/-- No name of a value is a number. -/
theorem Number.Written.ofWord? {n : Number} {cs : List Char} (h : n.Written cs) :
    Scalar.ofWord? cs = some (.number n) := by
  have other {c : Char} (hc : ¬ IsNumberChar c) {name : List Char} (hname : c ∈ name) :
      cs ≠ name := by
    rintro rfl
    exact hc (h.chars c hname)
  have letter {c : Char} (hc : c ∈ ['n', 't', 'f']) : ¬ IsNumberChar c := by
    simp only [List.mem_cons, List.not_mem_nil, or_false] at hc
    rcases hc with rfl | rfl | rfl <;> simp [IsNumberChar]
  have hnull : cs ≠ "null".toList := other (letter (c := 'n') (by simp)) (by simp)
  have htrue : cs ≠ "true".toList := other (letter (c := 't') (by simp)) (by simp)
  have hfalse : cs ≠ "false".toList := other (letter (c := 'f') (by simp)) (by simp)
  rw [Scalar.ofWord?, if_neg hnull, if_neg htrue, if_neg hfalse, h.ofChars?]
  rfl

namespace Scanner

theorem scan_cons {s t : State} {c : Char} (h : step s c = some t) (cs : List Char) :
    scan s (c :: cs) = scan t cs := by
  simp [scan, h]

theorem scan_word (word : List Char) (h : ∀ c ∈ word, endsWord c = false) (reversed : List Char)
    (tokens : List Token) :
    scan ⟨.word reversed, tokens⟩ word = some ⟨.word (word.reverse ++ reversed), tokens⟩ := by
  induction word generalizing reversed with
  | nil => rfl
  | cons c word ih =>
    have hstep : step ⟨.word reversed, tokens⟩ c = some ⟨.word (c :: reversed), tokens⟩ := by
      simp [step, h c (by simp)]
    rw [scan_cons hstep, ih (fun d hd => h d (by simp [hd]))]
    simp

theorem stepBetween_word {c : Char} (h : endsWord c = false) (tokens : List Token) :
    stepBetween tokens c = ⟨.word [c], tokens⟩ := by
  simp only [endsWord, Bool.or_eq_false_iff, beq_eq_false_iff_ne, Option.isSome_eq_false_iff,
    Option.isNone_iff_eq_none] at h
  simp [stepBetween, h]

/-- The state after which the tokens are known, at the latest when the next word
    begins or the text ends. -/
def Reads (cs : List Char) (ts : List Token) : Prop :=
  ∀ tokens, ∃ s, scan ⟨.between, tokens⟩ cs = some s ∧ finish s = some (ts.reverse ++ tokens)

/-- A word is read as the scalar that it names. -/
theorem reads_word {word : List Char} {s : Scalar} (nonempty : word ≠ [])
    (ends : ∀ c ∈ word, endsWord c = false) (h : Scalar.ofWord? word = some s) :
    Reads word [.scalar s] := by
  intro tokens
  cases word with
  | nil => exact absurd rfl nonempty
  | cons c word =>
    have hstep : step ⟨.between, tokens⟩ c = some ⟨.word [c], tokens⟩ := by
      rw [step, stepBetween_word (ends c (by simp))]
    have hrest := scan_word word (fun d hd => ends d (by simp [hd])) [c] tokens
    exact ⟨_, (scan_cons hstep word).trans hrest, by simp [finish, finishWord, h]⟩

/-- A name is read as the scalar that it stands for. -/
theorem reads_name {name : String} {s : Scalar} (nonempty : name.toList ≠ [])
    (ends : (name.toList.any endsWord) = false) (h : Scalar.ofWord? name.toList = some s) :
    Reads name.toList [.scalar s] :=
  reads_word nonempty (fun c hc => by simpa using List.any_eq_false.mp ends c hc) h

/-- A scalar is read as its token. -/
theorem reads_scalar {s : Scalar} {cs : List Char} (h : s.Written cs) :
    Reads cs [.scalar s] := by
  cases h with
  | null => exact reads_name (by decide) (by decide) (by decide)
  | true => exact reads_name (by decide) (by decide) (by decide)
  | false => exact reads_name (by decide) (by decide) (by decide)
  | number h => exact reads_word h.ne_nil (fun c hc => endsWord_number (h.chars c hc)) h.ofWord?
  | text h => exact fun tokens => ⟨_, scan_quoted h tokens, rfl⟩

theorem Reads.nil : Reads [] [] :=
  fun _ => ⟨_, rfl, rfl⟩

theorem endsWord_blank {c : Char} (h : isJsonBlank c = true) : endsWord c = true := by
  simp [endsWord, h]

theorem isJsonBlank_of_blanks {cs : List Char} (h : Blanks cs) {c : Char} (hc : c ∈ cs) :
    isJsonBlank c = true := by
  simpa [isJsonBlank, or_assoc] using h c hc

theorem scan_blanks {cs : List Char} (h : Blanks cs) (tokens : List Token) :
    scan ⟨.between, tokens⟩ cs = some ⟨.between, tokens⟩ := by
  induction cs with
  | nil => rfl
  | cons c cs ih =>
    have hstep : step ⟨.between, tokens⟩ c = some ⟨.between, tokens⟩ := by
      simp [step, stepBetween, isJsonBlank_of_blanks h List.mem_cons_self]
    rw [scan_cons hstep]
    exact ih fun d hd => h d (List.mem_cons_of_mem _ hd)

/-- A character that ends a word is read after the tokens before it are known. -/
theorem step_of_finish {s : State} {tokens : List Token} (h : finish s = some tokens) {c : Char}
    (hc : endsWord c = true) : step s c = some (stepBetween tokens c) := by
  obtain ⟨mode, reversed⟩ := s
  cases mode with
  | between => cases h; rfl
  | word w =>
    have hfinish : finishWord w reversed = some tokens := h
    simp [step, hc, hfinish]
  | quoted spelled escape => cases h

/-- Blanks in front change nothing. -/
theorem Reads.blanks_append {front cs : List Char} {ts : List Token} (hfront : Blanks front)
    (h : Reads cs ts) : Reads (front ++ cs) ts := by
  intro tokens
  obtain ⟨s, hscan, hfinish⟩ := h tokens
  exact ⟨s, by rw [scan_append, scan_blanks hfront, Option.bind_some, hscan], hfinish⟩

/-- Nor do blanks behind. -/
theorem Reads.append_blanks {cs back : List Char} {ts : List Token} (h : Reads cs ts)
    (hback : Blanks back) : Reads (cs ++ back) ts := by
  intro tokens
  obtain ⟨s, hscan, hfinish⟩ := h tokens
  cases back with
  | nil => exact ⟨s, by rw [List.append_nil, hscan], hfinish⟩
  | cons c back =>
    -- The first blank ends a word that may be under way.
    have hblank := isJsonBlank_of_blanks hback List.mem_cons_self
    have hstep : step s c = some ⟨.between, ts.reverse ++ tokens⟩ := by
      rw [step_of_finish hfinish (endsWord_blank hblank), stepBetween, if_pos hblank]
    refine ⟨⟨.between, ts.reverse ++ tokens⟩, ?_, rfl⟩
    rw [scan_append, hscan, Option.bind_some, scan_cons hstep]
    exact scan_blanks (fun d hd => hback d (List.mem_cons_of_mem _ hd)) _

theorem reads_blanks {cs : List Char} (h : Blanks cs) : Reads cs [] :=
  List.append_nil cs ▸ Reads.nil.blanks_append h

/-- A punctuation mark between two parts is read as its token. -/
theorem Reads.punctuation {cs more : List Char} {ts us : List Token} {c : Char} {token : Token}
    (h : Reads cs ts) (hc : Token.ofPunctuation? c = some token) (hmore : Reads more us) :
    Reads (cs ++ c :: more) (ts ++ token :: us) := by
  intro tokens
  obtain ⟨s, hscan, hfinish⟩ := h tokens
  have mark : ∀ {c token}, Token.ofPunctuation? c = some token →
      isJsonBlank c = false ∧ c ≠ '"' := by
    intro c token hc
    unfold Token.ofPunctuation? at hc
    split at hc <;> first | decide | cases hc
  have hstep : step s c = some ⟨.between, token :: (ts.reverse ++ tokens)⟩ := by
    rw [step_of_finish hfinish (by simp [endsWord, hc]), stepBetween, (mark hc).1, hc]
    simp [(mark hc).2]
  obtain ⟨s', hscan', hfinish'⟩ := hmore (token :: (ts.reverse ++ tokens))
  refine ⟨s', ?_, by simpa using hfinish'⟩
  rw [scan_append, hscan, Option.bind_some, scan_cons hstep, hscan']

/-- So is one in front. -/
theorem Reads.opening {more : List Char} {us : List Token} {c : Char} {token : Token}
    (hc : Token.ofPunctuation? c = some token) (hmore : Reads more us) :
    Reads (c :: more) (token :: us) :=
  Reads.nil.punctuation hc hmore

/-- A container is read as its brackets and what is between them. -/
theorem Reads.container {cs : List Char} {ts : List Token} {open' close : Char} {a b : Token}
    (ho : Token.ofPunctuation? open' = some a) (h : Reads cs ts)
    (hc : Token.ofPunctuation? close = some b) :
    Reads (open' :: cs ++ [close]) (a :: ts ++ [b]) :=
  .opening ho (h.punctuation hc .nil)

end Scanner

/-! ## Building trees -/

namespace Builder

/-- A stage in which a value may come. -/
def Stage.TakesValue : Stage → Prop
  | .value | .valueOrEnd => True
  | _ => False

/-- A stage in which a key may come. -/
def Stage.TakesKey : Stage → Prop
  | .key | .keyOrEnd => True
  | _ => False

/-- From the tokens comes the tree, for whatever container is open. -/
def Delivers (ts : List Token) (t : Tree) : Prop :=
  ∀ frames stage, stage.TakesValue → run (.building frames stage) ts = deliver t frames

/-- From the tokens come the items of an array, behind those that it has. -/
def Fills (ts : List Token) (items : List Tree) : Prop :=
  ∀ frames front stage, stage.TakesValue →
    run (.building (.array front :: frames) stage) ts =
      some (.building (.array (items.reverse ++ front) :: frames) .separator)

/-- From the tokens come the members of an object, behind those that it has. -/
def Extends (ts : List Token) (members : List (Option String × Tree)) : Prop :=
  ∀ frames front stage, stage.TakesKey →
    run (.building (.object front :: frames) stage) ts =
      some (.building (.object (members.reverse ++ front) :: frames) .separator)

theorem run_cons {s s' : State} {t : Token} (h : step s t = some s') (ts : List Token) :
    run s (t :: ts) = run s' ts := by
  simp [run, h]

theorem run_singleton (s : State) (t : Token) : run s [t] = step s t := by
  simp [run]

theorem run_append_of {s s' : State} {ts : List Token} (h : run s ts = some s')
    (us : List Token) : run s (ts ++ us) = run s' us := by
  rw [run_append, h, Option.bind_some]

/-- A value begins in the same way whether or not the container could also end. -/
theorem step_takesValue {stage : Stage} (h : stage.TakesValue) {token : Token}
    (hother : token ≠ .closing .array) (frames : List Frame) :
    step (.building frames stage) token = begin? frames token := by
  cases stage with
  | value => rfl
  | valueOrEnd =>
    cases token with
    | closing container =>
      cases container with
      | array => exact absurd rfl hother
      | object => rfl
    | _ => rfl
  | _ => cases h

theorem step_takesKey {stage : Stage} (h : stage.TakesKey) (key : Option String)
    (frames : List Frame) :
    step (.building frames stage) (.scalar (.text key)) = some (.building frames (.colon key)) := by
  cases stage with
  | key => rfl
  | keyOrEnd => rfl
  | _ => cases h

theorem delivers_scalar (s : Scalar) : Delivers [.scalar s] (.scalar s) := by
  intro frames stage hstage
  rw [run_singleton, step_takesValue hstage (by nofun)]
  rfl

theorem delivers_emptyArray : Delivers [.opening .array, .closing .array] (.array []) := by
  intro frames stage hstage
  rw [run_cons (step_takesValue hstage (by nofun) frames), run_singleton]
  rfl

theorem delivers_emptyObject : Delivers [.opening .object, .closing .object] (.object []) := by
  intro frames stage hstage
  rw [run_cons (step_takesValue hstage (by nofun) frames), run_singleton]
  rfl

/-- An array is delivered when its items have come. -/
theorem Fills.delivers {ts : List Token} {items : List Tree} (h : Fills ts items) :
    Delivers (.opening .array :: ts ++ [.closing .array]) (.array items) := by
  intro frames stage hstage
  rw [List.cons_append, run_cons (step_takesValue hstage (by nofun) frames),
    run_append_of (h frames [] .valueOrEnd trivial), run_singleton]
  simp [step, close?]

/-- An object is delivered when its members have come. -/
theorem Extends.delivers {ts : List Token} {members : List (Option String × Tree)}
    (h : Extends ts members) :
    Delivers (.opening .object :: ts ++ [.closing .object]) (.object members) := by
  intro frames stage hstage
  rw [List.cons_append, run_cons (step_takesValue hstage (by nofun) frames),
    run_append_of (h frames [] .keyOrEnd trivial), run_singleton]
  simp [step, close?]

theorem Delivers.fills {ts : List Token} {t : Tree} (h : Delivers ts t) : Fills ts [t] :=
  fun frames front stage hstage => h (.array front :: frames) stage hstage

theorem Fills.cons {ts us : List Token} {t : Tree} {items : List Tree} (h : Delivers ts t)
    (rest : Fills us items) : Fills (ts ++ .comma :: us) (t :: items) := by
  intro frames front stage hstage
  rw [run_append_of (h.fills frames front stage hstage), run_cons rfl]
  show run (.building (.array (t :: front) :: frames) .value) us = _
  rw [rest frames (t :: front) .value trivial]
  simp

/-- A member comes with its key, a colon and its value. -/
theorem Delivers.extends {ts : List Token} {t : Tree} (h : Delivers ts t) (key : Option String) :
    Extends (.scalar (.text key) :: .colon :: ts) [(key, t)] := by
  intro frames front stage hstage
  rw [run_cons (step_takesKey hstage key _), run_cons rfl,
    h (.member front key :: frames) .value trivial]
  rfl

theorem Extends.cons {ts us : List Token} {member : Option String × Tree}
    {members : List (Option String × Tree)} (h : Extends ts [member])
    (rest : Extends us members) : Extends (ts ++ .comma :: us) (member :: members) := by
  intro frames front stage hstage
  rw [run_append_of (h frames front stage hstage), run_cons rfl]
  show run (.building (.object (member :: front) :: frames) .key) us = _
  rw [rest frames (member :: front) .key trivial]
  simp

end Builder

/-! ## Reading trees -/

open Builder in
mutual

/-- The scanner and the builder follow the grammar of values. -/
theorem Tree.Written.reads {t : Tree} {cs : List Char} :
    Tree.Written t cs → ∃ ts, Scanner.Reads cs ts ∧ Delivers ts t
  | .scalar h => ⟨_, Scanner.reads_scalar h, delivers_scalar _⟩
  | .emptyArray h =>
    ⟨_, (Scanner.reads_blanks h).container rfl rfl, delivers_emptyArray⟩
  | .array h =>
    have ⟨_, hreads, hfills⟩ := h.reads
    ⟨_, hreads.container rfl rfl, hfills.delivers⟩
  | .emptyObject h =>
    ⟨_, (Scanner.reads_blanks h).container rfl rfl, delivers_emptyObject⟩
  | .object h =>
    have ⟨_, hreads, hextends⟩ := h.reads
    ⟨_, hreads.container rfl rfl, hextends.delivers⟩

/-- So they do with blanks around a value. -/
theorem Tree.Surrounded.reads {t : Tree} {cs : List Char} :
    Tree.Surrounded t cs → ∃ ts, Scanner.Reads cs ts ∧ Delivers ts t
  | .blanks hfront h hback =>
    have ⟨_, hreads, hdelivers⟩ := h.reads
    ⟨_, (hreads.blanks_append hfront).append_blanks hback, hdelivers⟩

/-- So they do with the items of an array. -/
theorem Tree.WrittenItems.reads {items : List Tree} {cs : List Char} :
    Tree.WrittenItems items cs → ∃ ts, Scanner.Reads cs ts ∧ Fills ts items
  | .last h =>
    have ⟨_, hreads, hdelivers⟩ := h.reads
    ⟨_, hreads, hdelivers.fills⟩
  | .cons h rest =>
    have ⟨_, hreads, hdelivers⟩ := h.reads
    have ⟨_, hrest, hfills⟩ := rest.reads
    ⟨_, hreads.punctuation rfl hrest, .cons hdelivers hfills⟩

/-- So they do with a member of an object. -/
theorem Tree.WrittenMember.reads {member : Option String × Tree} {cs : List Char} :
    Tree.WrittenMember member cs → ∃ ts, Scanner.Reads cs ts ∧ Extends ts [member]
  | .colon hfront hname hback h =>
    have ⟨_, hreads, hdelivers⟩ := h.reads
    have key := ((Scanner.reads_scalar (.text hname)).blanks_append hfront).append_blanks hback
    ⟨_, key.punctuation rfl hreads, hdelivers.extends _⟩

/-- So they do with the members of an object. -/
theorem Tree.WrittenMembers.reads {members : List (Option String × Tree)} {cs : List Char} :
    Tree.WrittenMembers members cs → ∃ ts, Scanner.Reads cs ts ∧ Extends ts members
  | .last h => h.reads
  | .cons h rest =>
    have ⟨_, hreads, hextends⟩ := h.reads
    have ⟨_, hrest, hmore⟩ := rest.reads
    ⟨_, hreads.punctuation rfl hrest, .cons hextends hmore⟩

end

/-- A text that spells a tree is read as the tree. -/
theorem Tree.read?_of_spelled {text : String} {t : Tree} (h : Tree.Surrounded t text.toList) :
    Tree.read? text = some t := by
  obtain ⟨ts, hreads, hdelivers⟩ := h.reads
  obtain ⟨s, hscan, hfinish⟩ := hreads []
  have tokens : Token.ofChars? text.toList = some ts := by
    simp [Token.ofChars?, Scanner.start, hscan, hfinish]
  have built : Builder.run Builder.start ts = some (.complete t) := hdelivers [] .value trivial
  simp [Tree.read?, tokens, Tree.ofTokens?, built, Builder.State.tree?]

end PollScript.Json
