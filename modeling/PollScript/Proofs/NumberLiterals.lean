import PollScript.Decimal.Numeral
import PollScript.Proofs.ShortestDecimals

/-!
# Literals are displayed numbers

The literal of a number is written in two ways: a whole number below a limit from its exact
value, and all others as they are displayed. Still every number but the negative zero has the
literal that is its display. Whatever rounds to a whole number below the limit is within one half
of it, so its shortest decimal, which is whole, is the number itself.

The literal begins with a minus exactly if the number is less than zero, whatever the number is.

Results:

* `ofChars?_positional`: positional notation is read as the number that its digits stand for.
* `Script.numberChars_eq_chars`: the two ways agree.
* `Script.head?_number`: the literal begins with a minus if the number is less than zero.
* `exists_writesShortest`: what a display writes.
-/

namespace PollScript

open Float.Model
open Float.Model.UnpackedFloat (Sign packComponents unpackExponent unpackMantissa unpackSign)

namespace Decimal

variable {m n : ℕ} {e : ℤ}

/-! ## Reading positional notation -/

/-- Digits on both sides of a point are the numeral that they look like. -/
theorem ofChars?_fraction {whole fraction : List Char} (hwhole : isDigits whole = true)
    (hfraction : isDigits fraction = true) :
    Numeral.ofChars? (whole ++ '.' :: fraction) = some ⟨whole, some fraction, none⟩ := by
  obtain ⟨htake, hdrop⟩ := takeWhile_digits hwhole ('.' :: fraction) fun c hc => by
    cases hc
    rfl
  obtain ⟨htake', hdrop'⟩ := takeWhile_digits hfraction [] nofun
  rw [List.append_nil] at htake' hdrop'
  unfold Numeral.ofChars?
  rw [hdrop, htake]
  show (Numeral.exponent? (fraction.dropWhile Char.isDigit)).map
    (Numeral.mk whole (some (fraction.takeWhile Char.isDigit))) = _
  rw [hdrop', htake']
  rfl

/-- Positional notation is read as the number that its digits stand for. -/
theorem ofChars?_positional {d : Digits} (h : d.Proper) :
    ∃ numeral, Numeral.ofChars? (d.positional []) = some numeral ∧ numeral.exponent = none ∧
      decimal numeral.coefficient numeral.scale = d.value := by
  rcases positional_cases h with
    ⟨whole, fraction, heq, hwhole, hfraction, hdigits, hpoint⟩ | ⟨zeros, heq, hpoint⟩
  · rw [heq]
    refine ⟨_, ofChars?_fraction hwhole hfraction, rfl, ?_⟩
    show decimal (Nat.ofDigitChars 10 (whole ++ fraction) 0) (0 - fraction.length) = _
    rw [hdigits, Digits.value, hpoint]
    congr 1
    ring
  · rw [heq]
    have hall := (isDigits_iff.mp (isDigits_append_zeros h.isDigits zeros)).2
    refine ⟨_, Numeral.ofChars?_digits _ hall, rfl, ?_⟩
    show decimal (Nat.ofDigitChars 10 (d.digits ++ List.replicate zeros '0' ++ []) 0) (0 - 0) = _
    rw [List.append_nil, Nat.ofDigitChars_append, Nat.ofDigitChars_replicate_zero, Nat.mul_comm,
      decimal_mul_pow, Digits.value, hpoint]
    congr 1
    ring

/-! ## Whole numbers -/

/-- Below the limit, there are bits for a fraction. -/
theorem nonpos_of_whole {v : ℕ} (hm : Canonical m e) (hv : binary m e = v)
    (hlimit : v < Script.wholeLimit) : e ≤ 0 := by
  by_contra hpos
  obtain ⟨d, rfl⟩ := Int.eq_ofNat_of_zero_le (not_le.mp hpos).le
  have hnormal : 2 ^ 52 ≤ m := hm.normal.resolve_right (by omega)
  have hvalue : m * 2 ^ d = v := by
    rw [binary, zpow_natCast] at hv
    exact_mod_cast hv
  have hlimit : v < 10 ^ 15 := hlimit
  have := Nat.mul_le_mul hnormal (Nat.one_le_two_pow (n := d))
  omega

/-- A whole number that rounds to a smaller whole double than the limit is the double. -/
theorem eq_of_contains {v D : ℕ} (hm : Canonical m e) (hv : binary m e = v)
    (hlimit : v < Script.wholeLimit) (hin : (Interval.ofBinary m e).Contains (decimal D 0)) :
    D = v := by
  have hlower := two_mul_lower hm.positive e
  have hupper := two_mul_upper m e
  have hdown := hin.1.le
  have hup := hin.2.le
  have hgap := gapBelow_le m e
  have hone := zpow_le_one_of_nonpos₀ (one_le_two (α := ℚ)) (nonpos_of_whole hm hv hlimit)
  rw [decimal, zpow_zero, mul_one] at hdown hup
  rw [hv] at hlower hupper
  have hlt : (D : ℚ) < v + 1 := by linarith
  have hgt : (v : ℚ) < D + 1 := by linarith
  norm_cast at hlt hgt
  omega

end Decimal

namespace Script

open Decimal

variable {m n : ℕ} {e : ℤ}

/-- The exact value that is written for a whole number is its value. -/
theorem wholeValue?_eq_some {v : ℕ} (h : wholeValue? m e = some v) :
    binary m e = v ∧ v < wholeLimit := by
  unfold wholeValue? at h
  dsimp only at h
  split at h
  · next hle =>
    split at h
    · next hlimit =>
      cases h
      refine ⟨?_, hlimit⟩
      obtain ⟨d, rfl⟩ := Int.eq_ofNat_of_zero_le hle
      show (m : ℚ) * 2 ^ (d : ℤ) = ((m * 2 ^ d : ℕ) : ℚ)
      rw [zpow_natCast]
      push_cast
      rfl
    · cases h
  · next hneg =>
    split at h
    · next hwhole =>
      cases h
      refine ⟨?_, hwhole.2⟩
      obtain ⟨d, rfl⟩ := Int.exists_eq_neg_ofNat (not_le.mp hneg).le
      rw [Int.natAbs_neg, Int.natAbs_natCast] at hwhole ⊢
      have hm : m = m / 2 ^ d * 2 ^ d :=
        (Nat.div_mul_cancel (Nat.dvd_of_mod_eq_zero hwhole.1)).symm
      show (m : ℚ) * 2 ^ (-(d : ℤ)) = ((m / 2 ^ d : ℕ) : ℚ)
      conv_lhs => rw [hm]
      rw [zpow_neg, zpow_natCast, Nat.cast_mul, Nat.cast_pow, Nat.cast_ofNat,
        mul_inv_cancel_right₀ (by positivity)]
    · cases h

/-- The characters of a literal are those of the display, except that zero has no sign. -/
theorem numberChars_eq_chars {u : UnpackedFloat} (canonical : ∀ sign m e positive,
    u = .finite sign m e positive → Canonical m e) (h : u ≠ .zero .negative) :
    numberChars u = Layout.plain.chars u := by
  cases u with
  | notANumber => rfl
  | infinity sign => rfl
  | zero sign =>
    cases sign with
    | negative => exact absurd rfl h
    | positive => rfl
  | finite sign m e positive =>
    have hm := canonical sign m e positive rfl
    unfold numberChars
    dsimp only
    cases hv : wholeValue? m e with
    | some v =>
      obtain ⟨hvalue, hlimit⟩ := wholeValue?_eq_some hv
      obtain ⟨n, d, hn, hshortest, hin⟩ := exists_shortest_of_whole hm hvalue .up
      rw [← zero_add (d : ℤ), ← decimal_mul_pow] at hin
      show signText sign ++ _ = signText sign ++ (shortest .up m e).positional []
      rw [hshortest, Digits.positional_ofScaled hn, eq_of_contains hm hvalue hlimit hin]
    | none => rfl

/-! ## The negative zero -/

theorem toBitVec_ofBitVec (b : BitVec 1) : (Sign.ofBitVec b).toBitVec = b := by
  revert b
  decide

/-- The bits of a number are those of its parts. -/
theorem packComponents_unpack (bits : BitVec 64) :
    packComponents Format.binary64 (Sign.ofBitVec (@unpackSign Format.binary64 bits))
      (@unpackExponent Format.binary64 bits) (@unpackMantissa Format.binary64 bits) = bits := by
  unfold packComponents
  rw [toBitVec_ofBitVec]
  show bits.extractLsb' 63 1 ++ bits.extractLsb' 52 11 ++ bits.extractLsb' 0 52 = bits
  rw [BitVec.extractLsb'_append_extractLsb'_eq_extractLsb' (show 63 = 52 + 11 from rfl),
    BitVec.extractLsb'_append_extractLsb'_eq_extractLsb' (show 52 = 0 + 52 from rfl)]
  exact BitVec.extractLsb'_eq_self

theorem eq_of_toBits {x y : Float} (h : x.toModel.toBits = y.toModel.toBits) : x = y := by
  obtain ⟨⟨bits, valid⟩⟩ := x
  obtain ⟨⟨bits', valid'⟩⟩ := y
  cases h
  rfl

/-- Only for the negative zero are all bits zero but the sign. -/
theorem eq_neg_zero_of_unpack {x : Float} (h : x.toModel.unpack = .zero .negative) : x = -0.0 := by
  have hbits : x.toModel.toBits.toBitVec =
      packComponents Format.binary64 .negative 0#11 0#52 := by
    have hfinite := isFinite_unpack.mp (congrArg UnpackedFloat.isFinite h)
    rw [← packComponents_unpack x.toModel.toBits.toBitVec]
    unfold Float.Model.unpack UnpackedFloat.unpack at h
    dsimp only at h
    rw [if_neg hfinite] at h
    by_cases hexponent : @unpackExponent Format.binary64 x.toModel.toBits.toBitVec = 0#11
    · rw [if_pos hexponent] at h
      by_cases hmantissa : @unpackMantissa Format.binary64 x.toModel.toBits.toBitVec = 0#52
      · rw [dif_pos hmantissa] at h
        rw [hexponent, hmantissa, UnpackedFloat.zero.inj h]
      · rw [dif_neg hmantissa] at h
        cases h
    · rw [if_neg hexponent] at h
      cases h
  have hzero : (-0.0 : Float).toModel.toBits.toBitVec =
      packComponents Format.binary64 .negative 0#11 0#52 := by decide +kernel
  exact eq_of_toBits (UInt64.toBitVec_inj.mp (hbits.trans hzero.symm))

/-! ## Signs -/

theorem lt_zero_iff {x : Float} :
    x < 0 ↔ x.toModel.unpack.compare (.zero .positive) = some .lt :=
  decide_eq_true_iff.trans beq_iff_eq

/-- The literal begins with a minus if the number is less than zero. -/
theorem head?_number (x : Float) : (number x).toList.head? = some '-' ↔ x < 0 := by
  rw [lt_zero_iff, number, String.toList_ofList]
  cases x.toModel.unpack with
  | notANumber => decide
  | infinity sign => cases sign <;> decide
  | zero sign => exact iff_of_false (by cases sign <;> decide) (by cases sign <;> decide)
  | finite sign m e positive =>
    obtain ⟨body, hchars, hbody⟩ := numberChars_finite sign m e positive
    rw [hchars]
    cases sign with
    | negative => exact iff_of_true rfl rfl
    | positive =>
      have hbodyHead : body.head? ≠ some '-' := fun hhead =>
        absurd (mem_of_isNumeral hbody (List.mem_of_mem_head? hhead)) (by decide)
      exact iff_of_false hbodyHead fun hlt => absurd (Option.some.inj hlt) (by decide)

end Script

namespace Decimal

/-- A text writes a double as its shortest decimal in positional notation. It has no exponent,
    and no point if the double is a whole number. -/
structure WritesShortest (text : List Char) (significand : ℕ) (exponent : ℤ) (d : Digits)
    (numeral : Numeral) : Prop where
  shortest : d.IsShortest significand exponent
  positional : text = d.positional []
  reads : Numeral.ofChars? text = some numeral
  value : decimal numeral.coefficient numeral.scale = d.value
  unscaled : numeral.exponent = none
  whole : ∀ v : ℕ, binary significand exponent = v → numeral.fraction = none

theorem exists_writesShortest {m : ℕ} {e : ℤ} (hm : Canonical m e) :
    ∃ d numeral, WritesShortest (Layout.plain.magnitude (shortest .up m e)) m e d numeral := by
  have hproper := proper_shortest hm.positive .up e
  obtain ⟨numeral, hreads, hexponent, hvalue⟩ := ofChars?_positional hproper
  refine ⟨_, numeral, isShortest_shortest hm .up, rfl, hreads, hvalue, hexponent, fun v hv => ?_⟩
  obtain ⟨n, d, hn, hshortest, -⟩ := exists_shortest_of_whole hm hv .up
  rw [hshortest, Digits.positional_ofScaled hn,
    Numeral.ofChars?_digits _ (isDigits_iff.mp (isDigits_toDigits _)).2] at hreads
  cases hreads
  rfl

end Decimal

end PollScript
