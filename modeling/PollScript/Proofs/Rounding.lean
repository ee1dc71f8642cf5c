import Mathlib.Algebra.Order.Field.Power
import Mathlib.Algebra.Order.Field.Rat
import Mathlib.Tactic.Linarith
import Mathlib.Tactic.LinearCombination
import Mathlib.Tactic.NormNum
import Mathlib.Tactic.Ring
import PollScript.Decimal.Shortest
import PollScript.Proofs.Overflow

/-!
# Numbers that round to a double

A positive double is a significand of 53 bits times a power of two, or a shorter one times the
least power. A number rounds to the double that is nearest to it, and from the middle between
two doubles to the one with the even significand. So the numbers that round to a double are an
interval. It ends halfway to the next double above and halfway to the next below, which is
closer if the double is a power of two, and it has its ends if the significand is even.

The doubles are taken here to go on above the greatest one.

Results:

* `canonical_of_unpack`: the significand and the exponent of a double are canonical.
* `binary_le_or_le`: no double is between a double and the next one on either side.
* `roundsTo_iff_contains`: the numbers that round to a double are those in its interval.
-/

namespace PollScript.Decimal

open Float.Model

variable {m n : ℕ} {e f : ℤ} {p q v w : ℚ}

/-! ## Doubles -/

/-- The number that a significand and an exponent stand for. -/
def binary (significand : ℕ) (exponent : ℤ) : ℚ :=
  significand * 2 ^ exponent

/-- The significand is positive and has 53 bits, or less if the exponent is the least. -/
structure Canonical (significand : ℕ) (exponent : ℤ) : Prop where
  positive : 0 < significand
  upper : significand < 2 ^ 53
  least : -1074 ≤ exponent
  /-- The first of 53 bits is set, unless the exponent is the least. -/
  normal : 2 ^ 52 ≤ significand ∨ exponent = -1074

/-- The significand and the exponent of a double are canonical. -/
theorem canonical_of_unpack {x : Float} {sign : UnpackedFloat.Sign} {positive : 0 < m}
    (h : x.toModel.unpack = .finite sign m e positive) : Canonical m e := by
  obtain ⟨hupper, hleast, hnormal⟩ := significand_of_unpack h
  exact ⟨positive, hupper, hleast, hnormal⟩

/-! ## Neighbours -/

theorem two_zpow_pos (e : ℤ) : (0 : ℚ) < 2 ^ e :=
  zpow_pos two_pos e

theorem two_zpow_eq (e : ℤ) : (2 : ℚ) ^ e = 2 * 2 ^ (e - 1) := by
  rw [mul_comm, ← zpow_add_one₀ two_ne_zero, sub_add_cancel]

/-- The distance from a double down to the next one. -/
def gapBelow (significand : ℕ) (exponent : ℤ) : ℚ :=
  if significand = leastNormal ∧ leastExponent < exponent then 2 ^ (exponent - 1)
  else 2 ^ exponent

theorem gapBelow_pos (m : ℕ) (e : ℤ) : 0 < gapBelow m e := by
  unfold gapBelow
  split
  · exact two_zpow_pos _
  · exact two_zpow_pos _

theorem gapBelow_le (m : ℕ) (e : ℤ) : gapBelow m e ≤ 2 ^ e := by
  have hpos := two_zpow_pos (e - 1)
  unfold gapBelow
  split
  · linarith [two_zpow_eq e]
  · exact le_rfl

/-- A number with a greater exponent is a multiple of the smaller power of two. -/
theorem binary_eq_of_le (h : e ≤ f) : ∃ k : ℕ, binary n f = k * 2 ^ e := by
  obtain ⟨d, rfl⟩ := Int.le.dest h
  refine ⟨n * 2 ^ d, ?_⟩
  rw [binary, zpow_add₀ two_ne_zero, zpow_natCast]
  push_cast
  ring

/-- No double is between a double and the next one on either side. -/
theorem binary_le_or_le (hm : Canonical m e) (hn : n < 2 ^ 53) (hf : -1074 ≤ f)
    (hne : binary n f ≠ binary m e) :
    binary n f ≤ binary m e - gapBelow m e ∨ binary m e + 2 ^ e ≤ binary n f := by
  have hpos := two_zpow_pos e
  have hhalf := two_zpow_eq e
  rcases lt_or_ge f e with hlt | hle
  · -- with a smaller exponent there are at most 53 ones, half a place below 52 zeros
    left
    have hnormal : 2 ^ 52 ≤ m := hm.normal.resolve_right (by omega)
    have hbits : (n : ℚ) ≤ 2 ^ 53 - 1 := by
      have : n + 1 ≤ 2 ^ 53 := hn
      have : (n : ℚ) + 1 ≤ 2 ^ 53 := mod_cast this
      linarith
    have hpower : (2 : ℚ) ^ f ≤ 2 ^ (e - 1) := zpow_le_zpow_right₀ one_le_two (by omega)
    have hbinary : binary n f ≤ (2 ^ 53 - 1) * 2 ^ (e - 1) :=
      mul_le_mul hbits hpower (two_zpow_pos f).le (by norm_num)
    unfold gapBelow
    rw [show leastNormal = 2 ^ 52 from rfl, show leastExponent = -1074 from rfl]
    split
    · next heq =>
      rw [binary, binary, heq.1] at *
      push_cast
      linarith
    · next hother =>
      have hmore : 2 ^ 52 + 1 ≤ m := by
        have : m ≠ 2 ^ 52 := fun heq => hother ⟨heq, by omega⟩
        omega
      have hmore : (2 ^ 52 + 1 : ℚ) ≤ m := mod_cast hmore
      have := mul_le_mul_of_nonneg_right hmore hpos.le
      rw [binary, binary] at *
      linarith
  · -- otherwise both are multiples of one power of two
    obtain ⟨k, hk⟩ := binary_eq_of_le (n := n) hle
    have hgap := gapBelow_le m e
    rw [hk] at hne ⊢
    unfold binary at hne ⊢
    rcases lt_trichotomy k m with hlt | rfl | hgt
    · left
      have : (k + 1 : ℚ) ≤ m := mod_cast hlt
      have := mul_le_mul_of_nonneg_right this hpos.le
      linarith
    · exact absurd rfl hne
    · right
      have : (m + 1 : ℚ) ≤ k := mod_cast hgt
      have := mul_le_mul_of_nonneg_right this hpos.le
      linarith

/-- The next double above. -/
theorem exists_binary_above (hm : Canonical m e) :
    ∃ n f, n < 2 ^ 53 ∧ -1074 ≤ f ∧ binary n f = binary m e + 2 ^ e := by
  have hupper := hm.upper
  have hleast := hm.least
  by_cases hones : m + 1 = 2 ^ 53
  · refine ⟨2 ^ 52, e + 1, by norm_num, by omega, ?_⟩
    have hm : (m : ℚ) + 1 = 2 ^ 53 := mod_cast hones
    rw [binary, binary, zpow_add_one₀ two_ne_zero]
    push_cast
    linear_combination (-(2 : ℚ) ^ e) * hm
  · refine ⟨m + 1, e, by omega, hleast, ?_⟩
    rw [binary, binary]
    push_cast
    ring

/-- The next double below. -/
theorem exists_binary_below (hm : Canonical m e) :
    ∃ n f, n < 2 ^ 53 ∧ -1074 ≤ f ∧ binary n f = binary m e - gapBelow m e := by
  have hpositive := hm.positive
  have hupper := hm.upper
  have hleast := hm.least
  unfold gapBelow
  rw [show leastNormal = 2 ^ 52 from rfl, show leastExponent = -1074 from rfl]
  split
  · next heq =>
    refine ⟨2 ^ 53 - 1, e - 1, by norm_num, by omega, ?_⟩
    rw [binary, binary, two_zpow_eq e, heq.1]
    push_cast
    ring
  · obtain ⟨k, rfl⟩ := Nat.exists_eq_add_of_lt hpositive
    refine ⟨k, e, by omega, hleast, ?_⟩
    rw [binary, binary]
    push_cast
    ring

/-! ## Rounding -/

/-- A number rounds to a double: no other double is as near, or none is nearer and the
    significand is even. -/
def RoundsTo (q : ℚ) (significand : ℕ) (exponent : ℤ) : Prop :=
  ∀ n f, n < 2 ^ 53 → -1074 ≤ f → binary n f ≠ binary significand exponent →
    |q - binary significand exponent| < |q - binary n f| ∨
      |q - binary significand exponent| = |q - binary n f| ∧ significand % 2 = 0

/-- Whether one number is below another, or may be the same if the ends count. -/
def Interval.Reaches (i : Interval) (p q : ℚ) : Prop :=
  if i.closed then p ≤ q else p < q

/-- The numbers of an interval. -/
def Interval.Contains (i : Interval) (q : ℚ) : Prop :=
  i.Reaches (binary i.lower i.exponent) q ∧ i.Reaches q (binary i.upper i.exponent)

namespace Interval

variable {i : Interval}

theorem Reaches.le (h : i.Reaches p q) : p ≤ q := by
  unfold Reaches at h
  split at h
  · exact h
  · exact h.le

theorem Reaches.of_lt (h : p < q) : i.Reaches p q := by
  unfold Reaches
  split
  · exact h.le
  · exact h

theorem Reaches.trans_le (h : i.Reaches p q) (hle : q ≤ v) : i.Reaches p v := by
  unfold Reaches at h ⊢
  split at h
  · next hclosed => rw [if_pos hclosed]; exact h.trans hle
  · next hopen => rw [if_neg hopen]; exact h.trans_le hle

theorem Reaches.le_trans (hle : p ≤ q) (h : i.Reaches q v) : i.Reaches p v := by
  unfold Reaches at h ⊢
  split at h
  · next hclosed => rw [if_pos hclosed]; exact hle.trans h
  · next hopen => rw [if_neg hopen]; exact hle.trans_lt h

theorem reaches_two_mul : i.Reaches (2 * p) (2 * q) ↔ i.Reaches p q := by
  unfold Reaches
  rw [mul_le_mul_iff_right₀ two_pos, mul_lt_mul_iff_right₀ two_pos]

theorem reaches_ofBinary : (ofBinary m e).Reaches p q ↔ p < q ∨ p = q ∧ m % 2 = 0 := by
  unfold Reaches ofBinary
  by_cases heven : m % 2 = 0 <;> simp [heven, le_iff_lt_or_eq]

end Interval

theorem dist_lt_iff (h : v < w) : |q - v| < |q - w| ↔ 2 * q < v + w := by
  rw [← sq_lt_sq]
  constructor <;> intro <;> nlinarith

theorem dist_eq_iff (h : v < w) : |q - v| = |q - w| ↔ 2 * q = v + w := by
  rw [← sq_eq_sq_iff_abs_eq_abs, ← sub_eq_zero,
    show (q - v) ^ 2 - (q - w) ^ 2 = (w - v) * (2 * q - (v + w)) by ring, mul_eq_zero,
    or_iff_right (sub_ne_zero.mpr h.ne'), sub_eq_zero]

/-- Of two numbers the one below is the nearer one up to the middle. -/
theorem nearer_above_iff (h : v < w) :
    |q - v| < |q - w| ∨ |q - v| = |q - w| ∧ m % 2 = 0 ↔
      (Interval.ofBinary m e).Reaches (2 * q) (v + w) := by
  rw [Interval.reaches_ofBinary, dist_lt_iff h, dist_eq_iff h]

/-- The one above is the nearer one from the middle on. -/
theorem nearer_below_iff (h : w < v) :
    |q - v| < |q - w| ∨ |q - v| = |q - w| ∧ m % 2 = 0 ↔
      (Interval.ofBinary m e).Reaches (w + v) (2 * q) := by
  have hlt : |q - v| < |q - w| ↔ w + v < 2 * q := by
    rw [← not_le, ← not_le, le_iff_lt_or_eq, dist_lt_iff h, dist_eq_iff h, ← le_iff_lt_or_eq]
  rw [Interval.reaches_ofBinary, hlt, eq_comm, dist_eq_iff h, eq_comm]

/-- The upper end is in the middle between a double and the next one above. -/
theorem two_mul_upper (m : ℕ) (e : ℤ) :
    2 * binary (Interval.ofBinary m e).upper (Interval.ofBinary m e).exponent =
      binary m e + (binary m e + 2 ^ e) := by
  unfold Interval.ofBinary binary
  rw [two_zpow_eq e, two_zpow_eq (e - 1), sub_sub, one_add_one_eq_two]
  push_cast
  ring

/-- The lower end is in the middle between a double and the next one below. -/
theorem two_mul_lower (hm : 0 < m) (e : ℤ) :
    2 * binary (Interval.ofBinary m e).lower (Interval.ofBinary m e).exponent =
      binary m e - gapBelow m e + binary m e := by
  unfold Interval.ofBinary binary gapBelow
  dsimp only
  rw [two_zpow_eq e, two_zpow_eq (e - 1), sub_sub, one_add_one_eq_two]
  split
  · rw [Nat.cast_sub (by omega)]
    push_cast
    ring
  · rw [Nat.cast_sub (by omega)]
    push_cast
    ring

/-- The numbers that round to a double are those in its interval. -/
theorem roundsTo_iff_contains (hm : Canonical m e) :
    RoundsTo q m e ↔ (Interval.ofBinary m e).Contains q := by
  have hpos := two_zpow_pos e
  have hgap := gapBelow_pos m e
  unfold Interval.Contains
  rw [← Interval.reaches_two_mul, ← Interval.reaches_two_mul (p := q), two_mul_lower hm.positive e,
    two_mul_upper m e]
  constructor
  · intro h
    obtain ⟨n, f, hn, hf, hbelow⟩ := exists_binary_below hm
    obtain ⟨n', f', hn', hf', habove⟩ := exists_binary_above hm
    rw [← hbelow, ← habove]
    exact ⟨(nearer_below_iff (by linarith)).mp (h n f hn hf (by linarith)),
      (nearer_above_iff (by linarith)).mp (h n' f' hn' hf' (by linarith))⟩
  · rintro ⟨hdown, hup⟩ n f hn hf hne
    rcases binary_le_or_le hm hn hf hne with hle | hle
    · exact (nearer_below_iff (by linarith)).mpr (hdown.le_trans (by linarith))
    · exact (nearer_above_iff (by linarith)).mpr (hup.trans_le (by linarith))

end PollScript.Decimal
