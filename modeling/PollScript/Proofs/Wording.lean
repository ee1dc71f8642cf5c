import PollScript.Proofs.Scanner
import PollScript.Proofs.Widths

/-!
# Wording

What a user writes into a text block, or as the name of a limiter or of a value in the
control system, shows in string literals and nowhere else. Two workspaces that differ in
such texts only fail alike, or give scripts that are the same apart from what is in their
literals, whatever the texts are: empty or blank, with line feeds, quotes or backslashes.

Literals are told by reading a script from its beginning. A quote opens one, and the next
quote that no backslash escapes closes it.

Results:

* `Text.outline_quote`: the literal of any text is read as one literal.
* `Generator.generate_reworded`: other texts give the same script apart from literals.
-/

namespace PollScript

open Script

/-! ## Scripts without the contents of literals -/

namespace Text

/-- The characters of a script outside of string literals, with a gap in place of each
    literal. -/
def outline : Scan.Mode → List Char → List (Option Char)
  | _, [] => []
  | .outside, c :: cs =>
    if c = '"' then none :: outline .inside cs else some c :: outline .outside cs
  | .inside, c :: cs =>
    if c = '"' then outline .outside cs
    else if c = '\\' then outline .escaped cs
    else outline .inside cs
  | .escaped, _ :: cs => outline .inside cs

/-- The script with a placeholder for each string literal. -/
def masked (placeholder script : String) : String :=
  String.ofList ((outline .outside script.toList).flatMap fun place =>
    place.elim placeholder.toList fun c => [c])

/-- The lines are the same outside of their literals. -/
def Redacted (line line' : List Char) : Prop :=
  outline .outside line = outline .outside line'

/-- How many string literals a script has. -/
def literalCount (script : String) : Nat :=
  (outline .outside script.toList).count none

theorem outline_quoteChar (c : Char) (rest : List Char) :
    outline .inside (quoteChar c ++ rest) = outline .inside rest := by
  unfold quoteChar
  split
  · rfl
  · rfl
  · rfl
  · rfl
  · rfl
  · next hbackslash hquote _ _ _ =>
    rw [List.singleton_append, outline, if_neg hquote, if_neg hbackslash]

theorem outline_quoteChars (cs rest : List Char) :
    outline .inside (quoteChars cs ++ '"' :: rest) = outline .outside rest := by
  induction cs with
  | nil => rfl
  | cons c cs ih =>
    rw [quoteChars, List.flatMap_cons, List.append_assoc, outline_quoteChar]
    exact ih

/-- The literal of any text is read as one literal. -/
theorem outline_quote (text : String) (rest : List Char) :
    outline .outside ((quote text).toList ++ rest) = none :: outline .outside rest := by
  rw [quote, String.toList_ofList, List.append_assoc, List.append_assoc]
  show none :: outline .inside (quoteChars text.toList ++ '"' :: rest) = _
  rw [outline_quoteChars]

end Text

/-- What is seen of a cell outside of literals. -/
def Cell.outline {Texts : String → String → Prop} (width : Nat) : Cell Texts → List (Option Char)
  | .char c => [some c]
  | .unit => List.replicate width (some ' ')
  | .literal .. => [none]

/-- What is seen of a filled stencil outside of its literals does not depend on what is
    filled into them. -/
theorem Filling.outline_chars {Texts : String → String → Prop} (F : Filling) {s : Stencil Texts}
    {m n : Bool} (h : s.lay m = some n) :
    Text.outline .outside (F.chars s) = s.flatMap (Cell.outline F.width) := by
  induction s generalizing m with
  | nil => rfl
  | cons cell s ih =>
    rw [Stencil.lay_cons, Option.bind_eq_some_iff] at h
    obtain ⟨mid, hcell, hrest⟩ := h
    rw [chars_cons, List.flatMap_cons, ← ih hrest]
    cases cell with
    | char c =>
      have hquote : c ≠ '"' := by
        rintro rfl
        cases m <;> cases hcell
      exact if_neg hquote
    | unit =>
      have hblanks : ∀ k : Nat, Text.outline .outside (List.replicate k ' ' ++ F.chars s) =
          List.replicate k (some ' ') ++ Text.outline .outside (F.chars s) := by
        intro k
        induction k with
        | zero => rfl
        | succ k ih =>
          rw [List.replicate_succ, List.replicate_succ, List.cons_append, List.cons_append, ← ih]
          rfl
      exact hblanks F.width
    | literal first second hsame => exact Text.outline_quote _ _

/-- Alike scripts with units of one width are seen alike outside of their literals. -/
theorem Variation.Sections.outline_eq {v : Variation} (hwidth : v.first = v.second)
    {s t : String} (h : v.Sections s t) :
    Text.outline .outside s.toList = Text.outline .outside t.toList := by
  obtain ⟨n, stencil, hlay, hleft, hright⟩ := h
  rw [← hleft, ← hright, Filling.outline_chars _ hlay, Filling.outline_chars _ hlay]
  show stencil.flatMap (Cell.outline v.first) = stencil.flatMap (Cell.outline v.second)
  rw [hwidth]

/-- So are their lines one by one. -/
theorem Variation.Sections.outline_lines {v : Variation} (hwidth : v.first = v.second)
    {s t : String} (h : v.Sections s t) :
    List.Forall₂ Text.Redacted (Text.lines s.toList) (Text.lines t.toList) := by
  obtain ⟨n, stencil, hlay, hleft, hright⟩ := h
  rw [← hleft, ← hright, Filling.lines_chars, Filling.lines_chars, List.forall₂_map_left_iff,
    List.forall₂_map_right_iff, List.forall₂_same]
  intro line hline
  obtain ⟨-, m, hline⟩ := Stencil.exists_lay_of_mem_lines hlay hline
  rw [Text.Redacted, Filling.outline_chars _ hline, Filling.outline_chars _ hline]
  show line.flatMap (Cell.outline v.first) = line.flatMap (Cell.outline v.second)
  rw [hwidth]

/-! ## Workspaces with other texts -/

/-- The blocks differ in the texts of fields that only ever stand in literals, apart from
    the blocks around them. -/
structure Block.Rewords (b c : Block) : Prop where
  id : b.id = c.id
  type : b.type = c.type
  enabled : b.enabled = c.enabled
  /-- All other fields are the same. -/
  fields : ∀ slot, b.field? slot = c.field? slot ∨
    ((b.type, slot) ∈ literalFields ∧
      ∃ s t, b.field? slot = some (.text s) ∧ c.field? slot = some (.text t))

/-- The workspaces differ in the texts of fields that only ever stand in literals. -/
def Workspace.Rewords (w u : Workspace) : Prop :=
  List.Forall₂ (Block.Along Block.Rewords) w.blocks u.blocks

namespace Generator

/-- The default generator gives the same error for workspaces that differ in texts for
    literals only, or two scripts that are the same when each of their literals is replaced
    by a placeholder, as a whole and line by line. -/
theorem generate_reworded {width : Nat} {g : Generator}
    (built : (Builder.default.indentWidth width).build = .ok g) {w u : Workspace}
    (h : w.Rewords u) :
    (∃ e, g.generate w = .error e ∧ g.generate u = .error e) ∨
    ∃ script script', g.generate w = .ok script ∧ g.generate u = .ok script' ∧
      (∀ placeholder, Text.masked placeholder script = Text.masked placeholder script') ∧
      Text.literalCount script = Text.literalCount script' ∧
      List.Forall₂ Text.Redacted (Text.lines script.toList) (Text.lines script'.toList) := by
  let v : Variation := ⟨max width 1, max width 1, Nat.le_max_right .., Nat.le_max_right .., id,
    fun _ _ => True, fun _ => trivial⟩
  rw [← Builder.indentWidth_max] at built
  have hblocks : List.Forall₂ (Block.Along v.Counterparts) w.blocks u.blocks :=
    h.imp fun b c hbc => hbc.mono fun b c hlocal => by
      refine ⟨hlocal.id, hlocal.type, hlocal.enabled, fun slot => ?_⟩
      rcases hlocal.fields slot with heq | ⟨hmem, s, t, hs, ht⟩
      · exact .inl heq
      · exact .inr ⟨hmem, s, t, hs, ht, trivial⟩
  have hagree := Variation.agree_generate (v.generators_default rfl built built) hblocks
  refine (hagree.same_or_ok GenerateError.mapType_id).imp_right ?_
  rintro ⟨script, script', hscript, hscript', hscripts⟩
  have houtline := hscripts.outline_eq rfl
  refine ⟨script, script', hscript, hscript', fun placeholder => ?_, ?_,
    hscripts.outline_lines rfl⟩
  · rw [Text.masked, Text.masked, houtline]
  · rw [Text.literalCount, Text.literalCount, houtline]

/-- A hostile text makes a script with one literal, like a harmless one. -/
theorem generate_reworded_text :
    Generator.generate
        ⟨⟨Catalog.default⟩, Emitters.default, (Builder.default.indentWidth 4).indent⟩
        ⟨[⟨"b1", "text", true, [("TEXT", .text "a")], [], none⟩]⟩ = .ok "\"a\"\n" ∧
      Generator.generate
        ⟨⟨Catalog.default⟩, Emitters.default, (Builder.default.indentWidth 4).indent⟩
        ⟨[⟨"b1", "text", true, [("TEXT", .text "\"\n  \\")], [], none⟩]⟩ =
          .ok "\"\\\"\\n  \\\\\"\n" ∧
      (∀ placeholder, Text.masked placeholder "\"a\"\n" =
        Text.masked placeholder "\"\\\"\\n  \\\\\"\n") ∧
      Text.literalCount "\"a\"\n" = Text.literalCount "\"\\\"\\n  \\\\\"\n" := by
  have hfirst : Generator.generate
      ⟨⟨Catalog.default⟩, Emitters.default, (Builder.default.indentWidth 4).indent⟩
      ⟨[⟨"b1", "text", true, [("TEXT", .text "a")], [], none⟩]⟩ = .ok "\"a\"\n" := by rfl
  have hsecond : Generator.generate
      ⟨⟨Catalog.default⟩, Emitters.default, (Builder.default.indentWidth 4).indent⟩
      ⟨[⟨"b1", "text", true, [("TEXT", .text "\"\n  \\")], [], none⟩]⟩ =
        .ok "\"\\\"\\n  \\\\\"\n" := by rfl
  have hrewords : Workspace.Rewords ⟨[⟨"b1", "text", true, [("TEXT", .text "a")], [], none⟩]⟩
      ⟨[⟨"b1", "text", true, [("TEXT", .text "\"\n  \\")], [], none⟩]⟩ := by
    refine .cons (.intro ⟨rfl, rfl, rfl, fun slot => ?_⟩ (fun _ => .none) .none) .nil
    by_cases hslot : slot = "TEXT"
    · subst hslot
      exact .inr ⟨by decide, _, _, rfl, rfl⟩
    · exact .inl (by simp [Block.field?, Dictionary.get?_cons, hslot])
  rcases generate_reworded (Builder.build_default 4) hrewords with
    ⟨e, herror, -⟩ | ⟨script, script', hscript, hscript', hmasked, hcount, -⟩
  · rw [hfirst] at herror
    cases herror
  · rw [hfirst] at hscript
    rw [hsecond] at hscript'
    cases hscript
    cases hscript'
    exact ⟨hfirst, hsecond, hmasked, hcount⟩

end Generator

end PollScript
