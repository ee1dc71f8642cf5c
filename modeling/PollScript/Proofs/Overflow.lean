import Mathlib.Algebra.Group.Nat.Defs
import PollScript.Proofs.Comparisons
import PollScript.Script.Literal

/-!
# Products that overflow

A script asks for its interval in seconds and in milliseconds. The milliseconds are a
product in double precision. The exact product is cut to 53 bits, to the nearest value and
in a tie to the even one, and its exponent says whether there is a number for it. Otherwise
the product is infinite.

Results:

* `shiftRight_exact`: what is left of a significand that is shifted, and what its rounding
  is told by.
* `roundWithAccuracy_exact`: the exponent that a long significand is rounded to.
* `isFinite_unpack_pack`, `unpack_pack_infinity`: which exponents there are numbers for.
* `mul_thousand`: intervals up to `longestInterval` have a number of milliseconds, and
  longer ones do not.
-/

namespace PollScript

open Float.Model
open Float.Model.UnpackedFloat (Sign Accuracy ExtendedMantissa packComponents unpackExponent
  unpackMantissa unpackSign packedInfinity shiftToTargetExponent shiftToExponent
  roundWithAccuracy)

/-! ## Numbers and their bits -/

/-- A number is finite unless the bits of its exponent are all set. -/
theorem isFinite_unpack {bits : BitVec 64} :
    (UnpackedFloat.unpack Format.binary64 bits).isFinite = true ↔
      @unpackExponent Format.binary64 bits ≠ -1#11 := by
  unfold UnpackedFloat.unpack
  dsimp only
  by_cases hones : @unpackExponent Format.binary64 bits = -1#11
  · rw [if_pos hones]
    refine iff_of_false ?_ (not_not_intro hones)
    by_cases hmantissa : @unpackMantissa Format.binary64 bits = 0#52
    · rw [if_pos hmantissa]
      exact Bool.false_ne_true
    · rw [if_neg hmantissa]
      exact Bool.false_ne_true
  · rw [if_neg hones]
    refine iff_of_true ?_ hones
    by_cases hzero : @unpackExponent Format.binary64 bits = 0#11
    · rw [if_pos hzero]
      by_cases hmantissa : @unpackMantissa Format.binary64 bits = 0#52
      · rw [dif_pos hmantissa]
        rfl
      · rw [dif_neg hmantissa]
        rfl
    · rw [if_neg hzero]
      rfl

/-- The exponent of a finite number is not below the least. The significand has 53 bits, or
    less if the exponent is the least. -/
theorem significand_of_unpack {bits : BitVec 64} {sign : Sign} {significand : Nat}
    {exponent : Int} {positive : 0 < significand}
    (h : UnpackedFloat.unpack Format.binary64 bits =
      .finite sign significand exponent positive) :
    significand < 2 ^ 53 ∧ -1074 ≤ exponent ∧ (2 ^ 52 ≤ significand ∨ exponent = -1074) := by
  have hlt : (@unpackMantissa Format.binary64 bits).toNat < 2 ^ 52 :=
    (@unpackMantissa Format.binary64 bits).isLt
  have hexponent : @unpackExponent Format.binary64 bits ≠ -1#11 :=
    isFinite_unpack.mp (congrArg UnpackedFloat.isFinite h)
  unfold UnpackedFloat.unpack at h
  dsimp only at h
  rw [if_neg hexponent] at h
  by_cases hzero : @unpackExponent Format.binary64 bits = 0#11
  · rw [if_pos hzero] at h
    by_cases hmantissa : @unpackMantissa Format.binary64 bits = 0#52
    · rw [dif_pos hmantissa] at h
      cases h
    · rw [dif_neg hmantissa] at h
      cases h
      rw [hzero]
      exact ⟨by omega, le_refl (-1074), .inr rfl⟩
  · rw [if_neg hzero] at h
    cases h
    have hvalue : (1#1 ++ @unpackMantissa Format.binary64 bits).toNat =
        2 ^ 52 + (@unpackMantissa Format.binary64 bits).toNat := by
      rw [BitVec.toNat_append, ← Nat.shiftLeft_add_eq_or_of_lt hlt]
      simp [Nat.shiftLeft_eq]
    have hnonzero : (@unpackExponent Format.binary64 bits).toNat ≠ 0 :=
      fun hnat => hzero (BitVec.eq_of_toNat_eq hnat)
    have hbias : (Format.binary64.exponentBias : Int) + (52 : Nat) = 1075 := rfl
    omega

theorem biased (exponent : Int) : exponent + (Format.binary64.exponentBias : Int) +
    (Format.binary64.mantissaBitsWithoutImplicit : Int) = exponent + 1075 := by
  show exponent + 1023 + 52 = _
  omega

/-- There is a number for every exponent that is not too great. -/
theorem isFinite_unpack_pack (sign : Sign) {significand : Nat} {exponent : Int}
    (positive : 0 < significand) (h : exponent < 972) :
    (Float.Model.pack (.finite sign significand exponent positive)).unpack.isFinite = true := by
  refine isFinite_unpack.mpr ?_
  show unpackExponent (UnpackedFloat.pack Format.binary64 _) ≠ _
  have hsmall : ¬2 ^ Format.binary64.exponentBits ≤ (exponent + 1075).toNat + 1 := by
    show ¬2048 ≤ _
    omega
  unfold UnpackedFloat.pack
  dsimp only
  rw [biased, if_neg hsmall]
  split
  · rw [UnpackedFloat.unpackExponent_packComponents]
    intro hones
    have hvalue := congrArg BitVec.toNat hones
    simp only [BitVec.toNat_ofNat] at hvalue
    have : (-1#11).toNat = 2047 := rfl
    omega
  · rw [UnpackedFloat.unpackExponent_packComponents]
    decide

/-- For greater exponents there is only infinity. -/
theorem unpack_pack_infinity (sign : Sign) {significand : Nat} {exponent : Int}
    (positive : 0 < significand) (h : 972 ≤ exponent) :
    (Float.Model.pack (.finite sign significand exponent positive)).unpack =
      .infinity sign := by
  show UnpackedFloat.unpack Format.binary64 (UnpackedFloat.pack Format.binary64 _) = _
  have hgreat : 2 ^ Format.binary64.exponentBits ≤ (exponent + 1075).toNat + 1 := by
    show 2048 ≤ _
    omega
  unfold UnpackedFloat.pack
  dsimp only
  rw [biased, if_pos hgreat]
  cases sign <;> rfl

/-! ## Rounding -/

/-- Of an exact significand, what is shifted out is told by its first bit, and by whether
    there is more. -/
theorem shiftRight_exact (significand k : Nat) :
    (ExtendedMantissa.ofMantissaAndAccuracy significand .exact) >>> (k + 1) =
      ⟨significand / 2 ^ (k + 1), significand / 2 ^ k % 2 != 0, significand % 2 ^ k != 0⟩ := by
  induction k with
  | zero =>
    show ExtendedMantissa.mk (significand / 2) (significand % 2 != 0) (false || false) = _
    simp [Nat.mod_one]
  | succ k ih =>
    show ExtendedMantissa.shiftRightOne
      (ExtendedMantissa.ofMantissaAndAccuracy significand .exact >>> (k + 1)) = _
    rw [ih]
    have hrest : significand % 2 ^ (k + 1) =
        significand % 2 ^ k + 2 ^ k * (significand / 2 ^ k % 2) := Nat.mod_pow_succ
    have hsticky : (significand / 2 ^ k % 2 != 0 || significand % 2 ^ k != 0) =
        (significand % 2 ^ (k + 1) != 0) := by
      rw [hrest]
      rcases Nat.mod_two_eq_zero_or_one (significand / 2 ^ k) with hbit | hbit
      · simp [hbit]
      · simp [hbit]
    unfold ExtendedMantissa.shiftRightOne
    dsimp only
    rw [hsticky, Nat.div_div_eq_div_mul, ← Nat.pow_succ]

/-- A significand of more than 53 bits is shifted until 53 bits are left. -/
theorem shiftToTargetExponent_exact {significand k : Nat} (exponent : Int)
    (length : significand.log2 = 52 + k) (least : -1074 ≤ exponent) :
    shiftToTargetExponent Format.binary64 significand exponent .exact =
      (ExtendedMantissa.ofMantissaAndAccuracy significand .exact >>> k, exponent + k) := by
  have htarget : Format.binary64.targetExponent (totalExponent significand exponent) =
      exponent + k := by
    show max ((significand.log2 : Int) + 1 + exponent - 53) (-1074) = _
    omega
  have hamount : (exponent + k - exponent).toNat = k := by omega
  unfold shiftToTargetExponent shiftToExponent
  dsimp only
  rw [htarget, hamount]

/-- A significand of 53 bits is as long as it is to be. -/
theorem shiftToTargetExponent_normal {significand : Nat} (exponent : Int)
    (lower : 2 ^ 52 ≤ significand) (upper : significand < 2 ^ 53) (least : -1074 ≤ exponent) :
    shiftToTargetExponent Format.binary64 significand exponent .exact =
      (⟨significand, false, false⟩, exponent) := by
  have hlength : significand.log2 = 52 + 0 := (Nat.log2_eq_iff (by omega)).mpr ⟨lower, upper⟩
  rw [shiftToTargetExponent_exact exponent hlength least, Int.natCast_zero, Int.add_zero]
  rfl

/-- The next power of two is one bit too long and is shifted once. -/
theorem shiftToTargetExponent_carry (exponent : Int) (least : -1074 ≤ exponent) :
    shiftToTargetExponent Format.binary64 (2 ^ 53) exponent .exact =
      (⟨2 ^ 52, false, false⟩, exponent + 1) := by
  have hlength : (2 ^ 53).log2 = 52 + 1 := Nat.log2_two_pow
  rw [shiftToTargetExponent_exact exponent hlength least]
  rfl

/-- A significand of `54 + k` bits is cut to 53 of them. The bit behind these is kept, and
    whether there is more behind it. -/
theorem shiftToTargetExponent_long {significand k : Nat} (exponent : Int)
    (length : significand.log2 = 53 + k) (least : -1074 ≤ exponent) :
    shiftToTargetExponent Format.binary64 significand exponent .exact =
      (⟨significand / 2 ^ k / 2, significand / 2 ^ k % 2 != 0, significand % 2 ^ k != 0⟩,
        exponent + k + 1) := by
  have hlength : significand.log2 = 52 + (k + 1) := by omega
  rw [shiftToTargetExponent_exact exponent hlength least, shiftRight_exact,
    Nat.div_div_eq_div_mul, ← Nat.pow_succ, Int.natCast_succ, Int.add_assoc]

/-- Of a significand with one more bit, that bit and whether there is more say how the
    others are rounded. -/
theorem roundedMantissa_eq (bits : Nat) (more : Bool) :
    (ExtendedMantissa.mk (bits / 2) (bits % 2 != 0) more).roundedMantissa =
      if bits % 2 = 0 then bits / 2
      else if more then bits / 2 + 1
      else bits / 2 + bits / 2 % 2 := by
  rcases Nat.mod_two_eq_zero_or_one bits with hbit | hbit <;> cases more <;>
    simp [ExtendedMantissa.roundedMantissa, ExtendedMantissa.accuracy,
      Accuracy.roundToNearestEven, hbit]

/-- All ones are rounded to the next power of two, and 54 other bits to 53 bits. -/
theorem roundedMantissa_cases {bits : Nat} (lower : 2 ^ 53 ≤ bits) (upper : bits < 2 ^ 54)
    (more : Bool) :
    (2 ^ 54 - 1 ≤ bits ∧
        (ExtendedMantissa.mk (bits / 2) (bits % 2 != 0) more).roundedMantissa = 2 ^ 53) ∨
      (bits < 2 ^ 54 - 1 ∧
        2 ^ 52 ≤ (ExtendedMantissa.mk (bits / 2) (bits % 2 != 0) more).roundedMantissa ∧
        (ExtendedMantissa.mk (bits / 2) (bits % 2 != 0) more).roundedMantissa < 2 ^ 53) := by
  rw [roundedMantissa_eq]
  split
  · omega
  · split <;> omega

/-- A significand of `54 + k` bits is rounded to 53 bits. The exponent grows by one more if
    it is so close to the next power of two that it is rounded to that. -/
theorem roundWithAccuracy_exact (sign : Sign) {significand k : Nat} (exponent : Int)
    (length : significand.log2 = 53 + k) (least : -1074 ≤ exponent) :
    ∃ rounded positive, roundWithAccuracy Format.binary64 sign significand exponent .exact =
      .finite sign rounded
        (if 2 ^ 54 - 1 ≤ significand / 2 ^ k then exponent + k + 2 else exponent + k + 1)
        positive := by
  have hne : significand ≠ 0 := by
    rintro rfl
    rw [Nat.log2_zero] at length
    omega
  have hlower : 2 ^ 53 ≤ significand / 2 ^ k := by
    rw [Nat.le_div_iff_mul_le (Nat.two_pow_pos k), ← Nat.pow_add, ← length]
    exact Nat.log2_self_le hne
  have hupper : significand / 2 ^ k < 2 ^ 54 := by
    rw [Nat.div_lt_iff_lt_mul (Nat.two_pow_pos k), ← Nat.pow_add]
    have hlog := Nat.lt_log2_self (n := significand)
    rwa [length, show 53 + k + 1 = 54 + k by omega] at hlog
  unfold roundWithAccuracy
  rw [shiftToTargetExponent_long exponent length least]
  dsimp only
  rcases roundedMantissa_cases hlower hupper (significand % 2 ^ k != 0) with
    ⟨hones, hrounded⟩ | ⟨hother, hleast, hless⟩
  · rw [hrounded, shiftToTargetExponent_carry _ (by omega), if_pos hones, Int.add_assoc]
    exact ⟨2 ^ 52, Nat.two_pow_pos 52, rfl⟩
  · generalize (ExtendedMantissa.mk (significand / 2 ^ k / 2) (significand / 2 ^ k % 2 != 0)
      (significand % 2 ^ k != 0)).roundedMantissa = rounded at hleast hless
    have hpositive : 0 < rounded := by omega
    rw [shiftToTargetExponent_normal _ hleast hless (by omega), if_neg (by omega)]
    exact ⟨rounded, hpositive, dif_neg (Nat.ne_of_gt hpositive)⟩

/-! ## Comparisons -/

/-- Positive numbers are compared by their exponents, and then by their significands. -/
theorem le_iff_of_unpack {x y : Float} {m n : Nat} {d e : Int} {hm : 0 < m} {hn : 0 < n}
    (hx : x.toModel.unpack = .finite .positive m d hm)
    (hy : y.toModel.unpack = .finite .positive n e hn) :
    x ≤ y ↔ d < e ∨ (d = e ∧ m ≤ n) := by
  rw [Numbers.le_iff_compare, hx, hy]
  show ((compare d e).then (compare m n)).isLE = true ↔ _
  rw [Ordering.isLE_then_iff_or, Nat.isLE_compare, Int.compare_eq_lt, Int.compare_eq_eq]

/-! ## A thousand times an interval -/

/-- The longest interval whose milliseconds are a finite number. -/
def longestInterval : Float := 1.7976931348623156e305

theorem unpack_longestInterval : ∃ positive,
    longestInterval.toModel.unpack = .finite .positive 4611686018427387 962 positive := by
  have hbits : longestInterval.toModel.toBits = 9173940527344757243 := by decide +kernel
  refine ⟨by decide, ?_⟩
  rw [Float.Model.unpack, hbits]
  rfl

theorem unpack_thousand : ∃ positive,
    (1000 : Float).toModel.unpack = .finite .positive (1000 * 2 ^ 43) (-43) positive :=
  ⟨by decide, rfl⟩

theorem unpack_one : ∃ positive,
    (1 : Float).toModel.unpack = .finite .positive (2 ^ 52) (-52) positive :=
  ⟨by decide, rfl⟩

/-- A finite number that is not less than one has a positive sign and all of its 53
    bits. -/
theorem unpack_of_one_le {x : Float} (finite : x.isFinite = true) (h : 1 ≤ x) :
    ∃ m e positive, x.toModel.unpack = .finite .positive m e positive ∧
      2 ^ 52 ≤ m ∧ m < 2 ^ 53 ∧ -52 ≤ e := by
  obtain ⟨hpositive, hone⟩ := unpack_one
  have hcompare := Numbers.le_iff_compare.mp h
  rw [hone] at hcompare
  have hfinite : x.toModel.unpack.isFinite = true := finite
  cases hx : x.toModel.unpack with
  | notANumber => rw [hx] at hfinite; cases hfinite
  | infinity sign => rw [hx] at hfinite; cases hfinite
  | zero sign => rw [hx] at hcompare; cases hcompare
  | finite sign m e positive =>
    rw [hx] at hcompare
    cases sign with
    | negative => cases hcompare
    | positive =>
      obtain ⟨hupper, -, hlower⟩ := significand_of_unpack hx
      have hle := (le_iff_of_unpack hone hx).mp h
      refine ⟨m, e, positive, rfl, ?_, hupper, ?_⟩ <;> omega

/-- The exponent of a thousand times a number is too great if the number is longer than the
    longest interval. -/
theorem round_thousand {m : Nat} {e : Int} (lower : 2 ^ 52 ≤ m) (upper : m < 2 ^ 53)
    (least : -52 ≤ e) :
    ∃ rounded exponent positive,
      roundWithAccuracy Format.binary64 .positive (m * (1000 * 2 ^ 43)) (e + -43) .exact =
        .finite .positive rounded exponent positive ∧
      (exponent < 972 ↔ e < 962 ∨ (e = 962 ∧ m ≤ 4611686018427387)) := by
  -- the exact product has 105 bits or 106, and is cut to 53
  by_cases hlength : m * (1000 * 2 ^ 43) < 2 ^ 105
  · have hlog : (m * (1000 * 2 ^ 43)).log2 = 53 + 51 :=
      (Nat.log2_eq_iff (by omega)).mpr ⟨by omega, hlength⟩
    obtain ⟨rounded, positive, hround⟩ :=
      roundWithAccuracy_exact .positive (e + -43) hlog (by omega)
    refine ⟨rounded, _, positive, hround, ?_⟩
    split <;> omega
  · have hlog : (m * (1000 * 2 ^ 43)).log2 = 53 + 52 :=
      (Nat.log2_eq_iff (by omega)).mpr ⟨by omega, by omega⟩
    obtain ⟨rounded, positive, hround⟩ :=
      roundWithAccuracy_exact .positive (e + -43) hlog (by omega)
    refine ⟨rounded, _, positive, hround, ?_⟩
    split <;> omega

/-- A thousand times a number is finite up to the longest interval, and infinite beyond. -/
theorem mul_thousand {x : Float} (finite : x.isFinite = true) (h : 1 ≤ x) :
    (x ≤ longestInterval → (x * 1000).isFinite = true) ∧
      (¬x ≤ longestInterval → (x * 1000).toModel.unpack = .infinity .positive) := by
  obtain ⟨m, e, positive, hx, hlower, hupper, hleast⟩ := unpack_of_one_le finite h
  obtain ⟨hlongest, hlimit⟩ := unpack_longestInterval
  obtain ⟨hpositive, hthousand⟩ := unpack_thousand
  obtain ⟨rounded, exponent, hrounded, hround, hexponent⟩ := round_thousand hlower hupper hleast
  have hproduct : (x * 1000).toModel =
      Float.Model.pack (.finite .positive rounded exponent hrounded) := by
    rw [← hround]
    show Float.Model.pack (UnpackedFloat.mul Format.binary64 x.toModel.unpack
      (1000 : Float).toModel.unpack) = _
    rw [hx, hthousand]
    rfl
  rw [le_iff_of_unpack hx hlimit, ← hexponent, Int.not_lt, hproduct]
  refine ⟨fun hsmall => ?_, unpack_pack_infinity .positive hrounded⟩
  show (x * 1000).toModel.unpack.isFinite = true
  rw [hproduct]
  exact isFinite_unpack_pack .positive hrounded hsmall

end PollScript
