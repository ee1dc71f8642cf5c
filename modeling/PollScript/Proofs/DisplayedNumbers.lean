import PollScript.Proofs.NumberLiterals
import PollScript.Proofs.NumberTokens

/-!
# Number blocks

The code of a number block is the literal of its number, and the order of the code, which decides
about parentheses, is chosen by a comparison of the number with zero. So what is written and what
is said about it come from two sources, but they agree.

Results:

* `Generator.emitBlock_displayed`: literals and the code of number blocks.
-/

namespace PollScript

open Float.Model.UnpackedFloat (Sign)

namespace Generator

open Script Decimal

/-- The literal of every number but the negative zero is its display, which is the shortest
    decimal if the number is finite. The literal begins with a minus exactly if the number is less
    than zero. So the code of a number block that is emitted without an error has the order of a
    signed number exactly if it begins with a minus, and otherwise that of an atom. -/
theorem emitBlock_displayed :
    (∀ x : Float, x ≠ -0.0 → number x = display x) ∧
    (number (-0.0) = "0" ∧ display 0 = "0") ∧
    (∀ (x : Float) (sign : Sign) (m : ℕ) (e : ℤ) (positive : 0 < m),
      x.toModel.unpack = .finite sign m e positive →
        ∃ text d numeral, (display x).toList = signText sign ++ text ∧
          WritesShortest text m e d numeral) ∧
    (∀ x : Float, (number x).toList.head? = some '-' ↔ x < 0) ∧
    ∀ (g : Generator) (b : Block) (c : Context) (f : Fragment),
      Dictionary.get? g.emitters b.type = some Emitters.mathNumber →
      (g.emitBlock b c).result = .ok f →
        ∃ x code order, g.fieldNumber b "NUM" = .ok x ∧ code = number x ∧
          f = .expression code order ∧
          (order = .unarySign ∧ code.toList.head? = some '-' ∨
            order = .atomic ∧ code.toList.head? ≠ some '-') := by
  refine ⟨fun x hx => ?_, ⟨by decide +kernel, text_zero⟩, ?_, head?_number, ?_⟩
  · rw [number, display, Layout.text, numberChars_eq_chars]
    · exact fun sign m e positive h => canonical_of_unpack h
    · exact fun h => hx (eq_neg_zero_of_unpack h)
  · intro x sign m e positive h
    obtain ⟨d, numeral, hwrites⟩ := exists_writesShortest (canonical_of_unpack h)
    refine ⟨_, d, numeral, ?_, hwrites⟩
    rw [display, Layout.text, String.toList_ofList, h]
    rfl
  · intro g b c f hemitter hf
    obtain ⟨x, hx, rfl⟩ := result_emitBlock hemitter (leads_mathNumber (g := g) (b := b) g.indent)
      c f hf
    refine ⟨x, _, _, hx, rfl, rfl, ?_⟩
    split
    · next hnegative => exact .inl ⟨rfl, (head?_number x).mpr hnegative⟩
    · next hother => exact .inr ⟨rfl, fun hhead => hother ((head?_number x).mp hhead)⟩

/-- A block with a negative number. -/
def negativeNumber : Block :=
  ⟨"n", "math_number", true, [("NUM", .number (-2.5))], [], none⟩

/-- A negative number is written with a minus, and its code has the order of a signed number. -/
theorem emitBlock_displayed_negative :
    (fourBlanks.emitBlock negativeNumber (Context.withIndent fourBlanks.indent)).result =
        .ok (.expression "-2.5" .unarySign) ∧
      number (-2.5) = display (-2.5) ∧
      (∃ text d numeral, (display (-2.5)).toList = signText .negative ++ text ∧
        WritesShortest text (5 * 2 ^ 50) (-51) d numeral) ∧
      ∃ x code order, fourBlanks.fieldNumber negativeNumber "NUM" = .ok x ∧ code = number x ∧
        Fragment.expression "-2.5" .unarySign = .expression code order ∧
        (order = .unarySign ∧ code.toList.head? = some '-' ∨
          order = .atomic ∧ code.toList.head? ≠ some '-') := by
  obtain ⟨hdisplay, -, hshortest, -, hblock⟩ := emitBlock_displayed
  have hresult :
      (fourBlanks.emitBlock negativeNumber (Context.withIndent fourBlanks.indent)).result =
        .ok (.expression "-2.5" .unarySign) := by
    decide +kernel
  have hbits : (-2.5 : Float).toModel.toBits = 13836183955189006336 := by
    decide +kernel
  refine ⟨hresult, hdisplay _ (by decide +kernel), ?_, hblock _ _ _ _ rfl hresult⟩
  refine hshortest (-2.5) .negative (5 * 2 ^ 50) (-51) (by decide) ?_
  rw [Float.Model.unpack, hbits]
  rfl

end Generator

end PollScript
