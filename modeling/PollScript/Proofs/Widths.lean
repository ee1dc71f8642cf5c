import PollScript.Proofs.Counterparts
import PollScript.Proofs.Walk

/-!
# Widths of indentation

The width of the indentation shows in the indentation of a script and nowhere else. Code
is indented in many places, and what is indented may hold code that is indented already.
Still every line of a script is some text behind some number of whole units, and that text
and that number do not depend on the width of a unit.

Results:

* `Variation.generators_default`: default generators of any two widths are counterparts.
* `Generator.generate_widths`: with another width, a workspace gives the same error, or a
  script with the same lines at the same levels.
-/

namespace PollScript

open Script

/-- The lines are one text, which does not begin with a blank, behind the same number of
    units of the one width and of the other. -/
def Text.Releveled (a b : Nat) (line line' : List Char) : Prop :=
  ∃ (level : Nat) (rest : List Char), rest.head? ≠ some ' ' ∧
    line = List.replicate (level * a) ' ' ++ rest ∧ line' = List.replicate (level * b) ' ' ++ rest

/-- A type that is found by its name has that name. -/
theorem Registry.map_get? (r : Registry) (type : String) :
    (r.get? type).map (fun spec => { spec with type }) = r.get? type := by
  cases hfound : r.get? type with
  | none => rfl
  | some spec =>
    have htype := List.find?_some hfound
    obtain rfl : spec.type = type := of_decide_eq_true htype
    rfl

namespace Filling

variable {Texts : String → String → Prop} (F : Filling)

theorem chars_replicate_unit (n : Nat) :
    F.chars (List.replicate n .unit : Stencil Texts) = List.replicate (n * F.width) ' ' := by
  induction n with
  | zero => rw [Nat.zero_mul]; rfl
  | succ n ih =>
    rw [List.replicate_succ, chars_cons, ih, Nat.succ_mul, Nat.add_comm, List.replicate_add]
    rfl

/-- Without units, and without a blank in front, a stencil gives a text without a blank in
    front. -/
theorem head?_chars_ne {s : Stencil Texts} (hunit : .unit ∉ s)
    (hhead : s.head? ≠ some (.char ' ')) : (F.chars s).head? ≠ some ' ' := by
  cases s with
  | nil => exact nofun
  | cons cell s =>
    rw [List.mem_cons, not_or] at hunit
    rw [chars_cons]
    cases cell with
    | unit => exact absurd rfl hunit.1
    | char c =>
      intro heq
      cases heq
      exact hhead rfl
    | literal first second hsame =>
      rw [Filling.cell, quote, String.toList_ofList]
      show some '"' ≠ some ' '
      decide

end Filling

namespace Variation

variable {v : Variation}

/-- If neither literals nor units vary, as far as there are any, a stencil gives one text. -/
theorem chars_eq (hsame : ∀ s t, v.Texts s t → s = t) {s : Stencil v.Texts}
    (hunit : .unit ∈ s → v.first = v.second) : v.left.chars s = v.right.chars s := by
  induction s with
  | nil => rfl
  | cons cell s ih =>
    rw [Filling.chars_cons, Filling.chars_cons,
      ih fun hmem => hunit (List.mem_cons_of_mem _ hmem)]
    congr 1
    cases cell with
    | unit => exact congrArg (List.replicate · ' ') (hunit List.mem_cons_self)
    | char c => rfl
    | literal first second htexts =>
      obtain rfl := hsame first second htexts
      rfl

/-- Where literals do not vary, the lines of alike texts differ in the width of their units
    only. -/
theorem Sections.lines (hsame : ∀ s t, v.Texts s t → s = t) {s t : String}
    (h : v.Sections s t) :
    List.Forall₂ (Text.Releveled v.first v.second) (Text.lines s.toList) (Text.lines t.toList) := by
  obtain ⟨margin, stencil, hlay, hleft, hright⟩ := h
  rw [← hleft, ← hright, Filling.lines_chars, Filling.lines_chars, List.forall₂_map_left_iff,
    List.forall₂_map_right_iff, List.forall₂_same]
  intro line hline
  obtain ⟨hfeed, _, hline⟩ := Stencil.exists_lay_of_mem_lines hlay hline
  obtain ⟨level, rest, rfl, hunit, hhead⟩ := Stencil.exists_margin hfeed hline
  refine ⟨level, v.left.chars rest, v.left.head?_chars_ne hunit hhead, ?_, ?_⟩
  · rw [Filling.chars_append, Filling.chars_replicate_unit]
    rfl
  · rw [Filling.chars_append, Filling.chars_replicate_unit,
      chars_eq hsame fun hmem => absurd hmem hunit]
    rfl

/-- Default generators of the two widths know the same types. -/
theorem generators_default (hrename : v.rename = id) {g h : Generator}
    (hg : (Builder.default.indentWidth v.first).build = .ok g)
    (hh : (Builder.default.indentWidth v.second).build = .ok h) : v.Generators g h := by
  have hunit : ∀ width, 0 < width → (Builder.default.indentWidth width).indent =
      String.ofList (List.replicate width ' ') := by
    intro width hwidth
    rw [Builder.indentWidth, Nat.max_eq_left hwidth]
  obtain ⟨hplain, hleft⟩ := Builder.plain_of_build hg
  obtain ⟨-, hright⟩ := Builder.plain_of_build hh
  rw [Builder.build_default] at hg hh
  cases hg
  cases hh
  refine ⟨hleft.trans (hunit _ v.first_pos), hright.trans (hunit _ v.second_pos), hplain, ?_, ?_⟩
  · intro type
    rw [hrename]
    exact (Registry.map_get? _ type).symm
  · intro type
    rw [hrename]
    rfl

end Variation

namespace Generator

/-- Whatever the two widths, the default generators exist, and any workspace gives the same
    error with both, or two scripts whose lines are the same texts at the same levels. -/
theorem generate_widths {a b : Nat} (ha : 1 ≤ a) (hb : 1 ≤ b) :
    ∃ g h : Generator, (Builder.default.indentWidth a).build = .ok g ∧
      (Builder.default.indentWidth b).build = .ok h ∧
      ∀ w : Workspace,
        (∃ e, g.generate w = .error e ∧ h.generate w = .error e) ∨
        ∃ script script', g.generate w = .ok script ∧ h.generate w = .ok script' ∧
          List.Forall₂ (Text.Releveled a b) (Text.lines script.toList)
            (Text.lines script'.toList) := by
  refine ⟨_, _, Builder.build_default a, Builder.build_default b, fun w => ?_⟩
  let v : Variation := ⟨a, b, ha, hb, id, Eq, fun _ => rfl⟩
  have hgenerators := v.generators_default rfl (Builder.build_default a) (Builder.build_default b)
  have hsame : ∀ c : Block, v.Counterparts c c := fun c => ⟨rfl, rfl, rfl, fun _ => .inl rfl⟩
  have hagree := Variation.agree_generate hgenerators (w := w) (u := w)
    (List.forall₂_same.mpr fun c _ => Block.Along.refl hsame c)
  refine (hagree.same_or_ok GenerateError.mapType_id).imp_right ?_
  rintro ⟨script, script', hscript, hscript', hscripts⟩
  exact ⟨script, script', hscript, hscript', hscripts.lines fun _ _ heq => heq⟩

/-- A task that logs is indented by two blanks or by four. -/
theorem generate_logging_task_widths :
    ∃ g h : Generator, (Builder.default.indentWidth 2).build = .ok g ∧
      (Builder.default.indentWidth 4).build = .ok h ∧
      ∃ script script',
        g.generate ⟨[⟨"b1", "modbus_task_definition", true, [],
          [("DO", ⟨"b2", "modbus_log", true, [], [], none⟩)], none⟩]⟩ = .ok script ∧
        h.generate ⟨[⟨"b1", "modbus_task_definition", true, [],
          [("DO", ⟨"b2", "modbus_log", true, [], [], none⟩)], none⟩]⟩ = .ok script' ∧
        List.Forall₂ (Text.Releveled 2 4) (Text.lines script.toList)
          (Text.lines script'.toList) := by
  obtain ⟨g, h, hg, hh, hall⟩ := generate_widths (a := 2) (b := 4) (by decide) (by decide)
  refine ⟨g, h, hg, hh, ?_⟩
  rcases hall ⟨[⟨"b1", "modbus_task_definition", true, [],
    [("DO", ⟨"b2", "modbus_log", true, [], [], none⟩)], none⟩]⟩ with ⟨e, herror, -⟩ | hscripts
  · obtain ⟨script, hscript⟩ := verdict_eq_ok_iff.mp ((verdict_generate
      (Builder.standard_of_build rfl rfl hg).1
      ⟨[⟨"b1", "modbus_task_definition", true, [],
        [("DO", ⟨"b2", "modbus_log", true, [], [], none⟩)], none⟩]⟩).trans
      (by rw [Builder.build_default] at hg; cases hg; rfl))
    rw [hscript] at herror
    cases herror
  · exact hscripts

end Generator

end PollScript
