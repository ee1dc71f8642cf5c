import PollScript.Proofs.Lexer

/-!
# Reading a string literal

A literal can be read from the front of a text without a look at what comes behind it: the
first quote that no backslash stands in front of ends it. On the way the escapes are undone,
and every other character stands for itself. A line feed, a carriage return and a tab may only
be written as escapes.

What is read back is the text that was quoted, whatever its quotes and backslashes are and
whatever follows the literal. So the literal of a text tells the text, and also where it ends.

Results:

* `readContent?_quoteChars`, `eq_of_readContent?`: what is read up to a quote is what was
  escaped in front of it.
* `readLiteral?_eq_some_iff`: the texts that begin with the literal of a text.
* `quote_selfDelimiting`: a literal is read back from in front of any text, different texts
  have different literals, and no literal begins with another one.
-/

namespace PollScript.Script

/-- The characters that stand in a literal only as escapes. -/
def isUnquotable (c : Char) : Bool :=
  c == '\n' || c == '\r' || c == '\t'

/-- Reads up to the quote that ends a literal. Gives what stands in the literal, and what
    follows the quote. -/
def readContent? : List Char → Option (List Char × List Char)
  | [] => none
  | '"' :: rest => some ([], rest)
  | ['\\'] => none
  | '\\' :: c :: rest =>
    (Lexer.unescape? c).bind fun d =>
      (readContent? rest).map fun (content, rest) => (d :: content, rest)
  | c :: rest =>
    if isUnquotable c then none
    else (readContent? rest).map fun (content, rest) => (c :: content, rest)

/-- Reads a string literal from the front of a text. Gives the text that it stands for, and
    what follows the literal. -/
def readLiteral? (code : String) : Option (String × String) :=
  match code.toList with
  | '"' :: rest =>
    (readContent? rest).map fun (content, rest) => (String.ofList content, String.ofList rest)
  | _ => none

/-! ## Characters -/

/-- A character is escaped, or it stands for itself. -/
theorem quoteChar_cases (c : Char) :
    (∃ d, quoteChar c = ['\\', d] ∧ Lexer.unescape? d = some c) ∨
      (quoteChar c = [c] ∧ c ≠ '"' ∧ c ≠ '\\' ∧ isUnquotable c = false) := by
  unfold quoteChar
  split
  · exact .inl ⟨'\\', rfl, rfl⟩
  · exact .inl ⟨'"', rfl, rfl⟩
  · exact .inl ⟨'n', rfl, rfl⟩
  · exact .inl ⟨'r', rfl, rfl⟩
  · exact .inl ⟨'t', rfl, rfl⟩
  · next hbackslash hquote hfeed hreturn htab =>
    have hraw : isUnquotable c = false := by
      rw [isUnquotable, beq_false_of_ne hfeed, beq_false_of_ne hreturn, beq_false_of_ne htab]
      rfl
    exact .inr ⟨rfl, hquote, hbackslash, hraw⟩

/-- The characters that escapes stand for are the ones that are escaped. -/
theorem quoteChar_of_unescape? {c d : Char} (h : Lexer.unescape? d = some c) :
    quoteChar c = ['\\', d] := by
  unfold Lexer.unescape? at h
  split at h
  all_goals cases h
  all_goals rfl

/-- Every other character is quoted as itself. -/
theorem quoteChar_of_other {c : Char} (hquote : c ≠ '"') (hbackslash : c ≠ '\\')
    (hraw : isUnquotable c = false) : quoteChar c = [c] := by
  have hends : c ≠ '\n' ∧ c ≠ '\r' ∧ c ≠ '\t' := by
    simpa [isUnquotable, and_assoc] using hraw
  unfold quoteChar
  split
  · exact absurd rfl hbackslash
  · exact absurd rfl hquote
  · exact absurd rfl hends.1
  · exact absurd rfl hends.2.1
  · exact absurd rfl hends.2.2
  · rfl

/-! ## Literals -/

theorem quoteChars_cons (c : Char) (cs : List Char) :
    quoteChars (c :: cs) = quoteChar c ++ quoteChars cs :=
  List.flatMap_cons

theorem readContent?_escape (c : Char) (rest : List Char) :
    readContent? ('\\' :: c :: rest) = (Lexer.unescape? c).bind fun d =>
      (readContent? rest).map fun (content, rest) => (d :: content, rest) :=
  rfl

theorem readContent?_other {c : Char} (hquote : c ≠ '"') (hbackslash : c ≠ '\\')
    (rest : List Char) :
    readContent? (c :: rest) = if isUnquotable c then none
      else (readContent? rest).map fun (content, rest) => (c :: content, rest) := by
  rw [readContent?]
  · exact hquote
  · exact fun h _ => hbackslash h
  · exact fun _ _ h _ => hbackslash h

/-- What was escaped is read up to the quote behind it. -/
theorem readContent?_quoteChars (content rest : List Char) :
    readContent? (quoteChars content ++ '"' :: rest) = some (content, rest) := by
  induction content with
  | nil => rfl
  | cons c cs ih =>
    rw [quoteChars_cons, List.append_assoc]
    rcases quoteChar_cases c with ⟨d, heq, hd⟩ | ⟨heq, hquote, hbackslash, hraw⟩
    · rw [heq, List.cons_append, List.singleton_append, readContent?_escape, hd, ih]
      rfl
    · rw [heq, List.singleton_append, readContent?_other hquote hbackslash, hraw, ih]
      rfl

/-- Only what was escaped can be read. -/
theorem eq_of_readContent? {cs content rest : List Char}
    (h : readContent? cs = some (content, rest)) : cs = quoteChars content ++ '"' :: rest := by
  fun_induction readContent? cs generalizing content rest with
  | case1 => cases h
  | case2 => cases h; rfl
  | case3 => cases h
  | case4 c tail ih =>
    obtain ⟨d, hd, h⟩ := Option.bind_eq_some_iff.mp h
    obtain ⟨⟨inner, behind⟩, hinner, heq⟩ := Option.map_eq_some_iff.mp h
    cases heq
    rw [quoteChars_cons, quoteChar_of_unescape? hd, ih hinner]
    rfl
  | case5 => cases h
  | case6 c tail hquote hlone hescape hraw ih =>
    obtain ⟨⟨inner, behind⟩, hinner, heq⟩ := Option.map_eq_some_iff.mp h
    cases heq
    have hbackslash : c ≠ '\\' := by
      rintro rfl
      cases tail with
      | nil => exact hlone rfl rfl
      | cons d tail => exact hescape d tail rfl rfl
    rw [quoteChars_cons, quoteChar_of_other hquote hbackslash (by simpa using hraw), ih hinner]
    rfl

theorem toList_quote_append (text rest : String) :
    (quote text ++ rest).toList = '"' :: (quoteChars text.toList ++ '"' :: rest.toList) := by
  rw [quote, String.toList_append, String.toList_ofList, List.append_assoc, List.append_assoc]
  rfl

/-- A literal is read from the front of a text just where the text begins with the literal of
    what is read. -/
theorem readLiteral?_eq_some_iff {code text rest : String} :
    readLiteral? code = some (text, rest) ↔ code = quote text ++ rest := by
  constructor
  · intro h
    unfold readLiteral? at h
    split at h
    · next chars hcode =>
      obtain ⟨⟨content, behind⟩, hcontent, heq⟩ := Option.map_eq_some_iff.mp h
      cases heq
      rw [← String.toList_inj, hcode, eq_of_readContent? hcontent, toList_quote_append,
        String.toList_ofList, String.toList_ofList]
    · cases h
  · rintro rfl
    unfold readLiteral?
    rw [toList_quote_append]
    show (readContent? (quoteChars text.toList ++ '"' :: rest.toList)).map _ = _
    rw [readContent?_quoteChars]
    show some (String.ofList text.toList, String.ofList rest.toList) = some (text, rest)
    rw [String.ofList_toList, String.ofList_toList]

/-- What must be escaped does not stand for itself. -/
theorem all_quotable_quoteChar (c : Char) :
    (quoteChar c).all (fun d => !isUnquotable d) = true := by
  unfold quoteChar
  split
  · rfl
  · rfl
  · rfl
  · rfl
  · rfl
  · next hfeed hreturn htab =>
    rw [List.all_cons, isUnquotable, beq_false_of_ne hfeed, beq_false_of_ne hreturn,
      beq_false_of_ne htab]
    rfl

theorem all_quotable_quote (text : String) :
    (quote text).toList.all (fun c => !isUnquotable c) = true := by
  rw [quote, String.toList_ofList, List.all_append, List.all_append, quoteChars, List.all_flatMap,
    List.all_eq_true.mpr fun c _ => all_quotable_quoteChar c]
  rfl

/-- From in front of any text, the literal of a text is read back as that text, and what follows
    it is left. No line feed, carriage return or tab stands in it. So different texts have
    different literals, and no literal goes on as another one. -/
theorem quote_selfDelimiting :
    (∀ text rest, readLiteral? (quote text ++ rest) = some (text, rest)) ∧
      (∀ code text rest, readLiteral? code = some (text, rest) ↔ code = quote text ++ rest) ∧
      (∀ text, (quote text).toList.all (fun c => !isUnquotable c) = true) ∧
      (∀ s t, quote s = quote t ↔ s = t) ∧
      ∀ s t, (quote s).toList <+: (quote t).toList ↔ s = t := by
  have hread : ∀ text rest, readLiteral? (quote text ++ rest) = some (text, rest) :=
    fun _ _ => readLiteral?_eq_some_iff.mpr rfl
  -- the literal of a longer text would be read as the text of the shorter one
  have hbegins : ∀ s t, (quote s).toList <+: (quote t).toList → s = t := by
    rintro s t ⟨more, hmore⟩
    have hcode : quote t = quote s ++ String.ofList more := by
      rw [← String.toList_inj, String.toList_append, String.toList_ofList, hmore]
    have htext : readLiteral? (quote t) = some (t, "") := by
      rw [← String.append_empty (s := quote t)]
      exact hread t ""
    rw [hcode, hread] at htext
    exact congrArg Prod.fst (Option.some.inj htext)
  refine ⟨hread, fun _ _ _ => readLiteral?_eq_some_iff, all_quotable_quote, ?_, ?_⟩
  · intro s t
    exact ⟨fun h => hbegins s t (h ▸ List.prefix_refl _), congrArg quote⟩
  · intro s t
    refine ⟨hbegins s t, ?_⟩
    rintro rfl
    exact List.prefix_refl _

end PollScript.Script
