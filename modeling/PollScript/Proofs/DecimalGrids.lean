import PollScript.Proofs.Rounding

/-!
# Multiples of a power of ten in an interval

The search for a short decimal goes through the powers of ten and takes on each of them a
multiple next to the value of the interval. It compares natural numbers, which are products of
the ends of the interval and of multiples of the power of ten with one common factor. The
comparisons are therefore those of the numbers themselves.

On each power the search gets the nearest multiple that is in the interval, if there is one. It
begins with the power of the leading digit, and seventeen digits later the multiples are so
close that one is always in the interval of a double.

Results:

* `Interval.contains_of_nearestOn`, `Interval.nearest_of_nearestOn`,
  `Interval.not_contains_of_nearestOn`: what is found on a power of ten.
* `Interval.leadingPlace_spec`: the value is between the power of its leading digit and the next.
* `exists_contains_ofBinary`: seventeen digits are enough.
-/

namespace PollScript.Decimal

variable {m n : ℕ} {e k : ℤ} {q : ℚ}

/-- A multiple of a power of ten. -/
def decimal (coefficient : ℕ) (exponent : ℤ) : ℚ :=
  coefficient * 10 ^ exponent

theorem ten_zpow_pos (k : ℤ) : (0 : ℚ) < 10 ^ k :=
  zpow_pos (by norm_num) k

theorem decimal_le_decimal {a b : ℕ} : decimal a k ≤ decimal b k ↔ a ≤ b := by
  rw [decimal, decimal, mul_le_mul_iff_left₀ (ten_zpow_pos k), Nat.cast_le]

namespace Interval

variable {i : Interval} {tie : Tie}

/-! ## Comparisons -/

/-- A power of one sign is a quotient of two powers of natural exponents. -/
theorem pow_toNat {b : ℚ} (hb : b ≠ 0) (e : ℤ) : b ^ e.toNat = b ^ e * b ^ (-e).toNat := by
  rw [← zpow_natCast, ← zpow_natCast, ← zpow_add₀ hb]
  congr 1
  omega

/-- The two natural numbers of a power of ten are the unit of the interval and that power,
    times a common factor. -/
theorem exists_factor (i : Interval) (k : ℤ) : ∃ c : ℚ, 0 < c ∧
    ((i.unitOn k).1 : ℚ) = 2 ^ i.exponent * c ∧ ((i.unitOn k).2 : ℚ) = 10 ^ k * c := by
  refine ⟨2 ^ (-i.exponent).toNat * 10 ^ (-k).toNat, by positivity, ?_, ?_⟩
  · show ((2 ^ i.exponent.toNat * 10 ^ (-k).toNat : ℕ) : ℚ) = _
    push_cast
    rw [pow_toNat two_ne_zero, mul_assoc]
  · show ((2 ^ (-i.exponent).toNat * 10 ^ k.toNat : ℕ) : ℚ) = _
    push_cast
    rw [pow_toNat (b := 10) (by norm_num) k]
    ring

theorem mul_unit_le_iff {a : ℕ} : a * (i.unitOn k).1 ≤ n * (i.unitOn k).2 ↔
    binary a i.exponent ≤ decimal n k := by
  obtain ⟨c, hc, hunit, hstep⟩ := i.exists_factor k
  rw [← Nat.cast_le (α := ℚ), Nat.cast_mul, Nat.cast_mul, hunit, hstep, ← mul_assoc, ← mul_assoc,
    mul_le_mul_iff_left₀ hc]
  rfl

theorem mul_step_le_iff {a : ℕ} : n * (i.unitOn k).2 ≤ a * (i.unitOn k).1 ↔
    decimal n k ≤ binary a i.exponent := by
  obtain ⟨c, hc, hunit, hstep⟩ := i.exists_factor k
  rw [← Nat.cast_le (α := ℚ), Nat.cast_mul, Nat.cast_mul, hunit, hstep, ← mul_assoc, ← mul_assoc,
    mul_le_mul_iff_left₀ hc]
  rfl

theorem mul_unit_lt_iff {a : ℕ} : a * (i.unitOn k).1 < n * (i.unitOn k).2 ↔
    binary a i.exponent < decimal n k := by
  rw [← not_le, ← not_le, mul_step_le_iff]

theorem mul_step_lt_iff {a : ℕ} : n * (i.unitOn k).2 < a * (i.unitOn k).1 ↔
    decimal n k < binary a i.exponent := by
  rw [← not_le, ← not_le, mul_unit_le_iff]

theorem unit_pos (i : Interval) (k : ℤ) : 0 < (i.unitOn k).1 :=
  Nat.mul_pos (Nat.pow_pos two_pos) (Nat.pow_pos (by decide))

theorem step_pos (i : Interval) (k : ℤ) : 0 < (i.unitOn k).2 :=
  Nat.mul_pos (Nat.pow_pos two_pos) (Nat.pow_pos (by decide))

/-! ## The multiples next to the value -/

/-- The own value of the double. -/
def center (i : Interval) : ℚ :=
  binary i.value i.exponent

/-- The greatest multiple that is not above the value. -/
def below (i : Interval) (k : ℤ) : ℕ :=
  i.value * (i.unitOn k).1 / (i.unitOn k).2

theorem decimal_below_le (i : Interval) (k : ℤ) : decimal (i.below k) k ≤ i.center :=
  mul_step_le_iff.mp (Nat.div_mul_le_self _ _)

theorem lt_decimal_above (i : Interval) (k : ℤ) : i.center < decimal (i.below k + 1) k :=
  mul_unit_lt_iff.mp ((Nat.lt_mul_div_succ _ (i.step_pos k)).trans_eq (Nat.mul_comm _ _))

/-- The value is inside of the interval, and all numbers of the interval are positive. -/
structure Proper (i : Interval) : Prop where
  positive : 0 < i.lower
  lower : i.lower < i.value
  upper : i.value < i.upper

theorem Proper.lower_lt (hi : i.Proper) : binary i.lower i.exponent < i.center :=
  mul_lt_mul_of_pos_right (Nat.cast_lt.mpr hi.lower) (two_zpow_pos _)

theorem Proper.lt_upper (hi : i.Proper) : i.center < binary i.upper i.exponent :=
  mul_lt_mul_of_pos_right (Nat.cast_lt.mpr hi.upper) (two_zpow_pos _)

theorem Proper.contains_center (hi : i.Proper) : i.Contains i.center :=
  ⟨.of_lt hi.lower_lt, .of_lt hi.lt_upper⟩

/-- What is between the value and a number of the interval is in the interval. -/
theorem contains_between (hi : i.Proper) (h : i.Contains q) {r : ℚ}
    (between : q ≤ r ∧ r ≤ i.center ∨ i.center ≤ r ∧ r ≤ q) : i.Contains r := by
  obtain ⟨hlower, hupper⟩ := h
  rcases between with ⟨hqr, hrc⟩ | ⟨hcr, hrq⟩
  · exact ⟨hlower.trans_le hqr, .of_lt (hrc.trans_lt hi.lt_upper)⟩
  · exact ⟨.of_lt (hi.lower_lt.trans_le hcr), hupper.le_trans hrq⟩

/-- A multiple that is not above the value is in the interval if it reaches the lower end. -/
theorem contains_below (hi : i.Proper) (k : ℤ) :
    (if i.closed then i.lower * (i.unitOn k).1 ≤ i.below k * (i.unitOn k).2
      else i.lower * (i.unitOn k).1 < i.below k * (i.unitOn k).2) ↔
    i.Contains (decimal (i.below k) k) := by
  rw [mul_unit_le_iff, mul_unit_lt_iff]
  exact (and_iff_left (.of_lt ((i.decimal_below_le k).trans_lt hi.lt_upper))).symm

/-- A multiple above the value is in the interval if it reaches the upper end. -/
theorem contains_above (hi : i.Proper) (k : ℤ) :
    (if i.closed then (i.below k + 1) * (i.unitOn k).2 ≤ i.upper * (i.unitOn k).1
      else (i.below k + 1) * (i.unitOn k).2 < i.upper * (i.unitOn k).1) ↔
    i.Contains (decimal (i.below k + 1) k) := by
  rw [mul_step_le_iff, mul_step_lt_iff]
  exact (and_iff_right (.of_lt (hi.lower_lt.trans (i.lt_decimal_above k)))).symm

/-- No multiple is nearer to the value than the two next to it. -/
theorem nearer_or_nearer (hi : i.Proper) {n : ℕ} (h : i.Contains (decimal n k)) :
    (i.Contains (decimal (i.below k) k) ∧
        |decimal (i.below k) k - i.center| ≤ |decimal n k - i.center|) ∨
      (i.Contains (decimal (i.below k + 1) k) ∧
        |decimal (i.below k + 1) k - i.center| ≤ |decimal n k - i.center|) := by
  have hbelow := i.decimal_below_le k
  have habove := i.lt_decimal_above k
  rcases Nat.lt_or_ge (i.below k) n with hlt | hle
  · have hn : decimal (i.below k + 1) k ≤ decimal n k := decimal_le_decimal.mpr hlt
    refine .inr ⟨contains_between hi h (.inr ⟨habove.le, hn⟩), ?_⟩
    rw [abs_of_nonneg (by linarith), abs_of_nonneg (by linarith)]
    linarith
  · have hn : decimal n k ≤ decimal (i.below k) k := decimal_le_decimal.mpr hle
    refine .inl ⟨contains_between hi h (.inl ⟨hn, hbelow⟩), ?_⟩
    rw [abs_of_nonpos (by linarith), abs_of_nonpos (by linarith)]
    linarith

/-- The distances that the search compares are those from the value, times a common factor. -/
theorem exists_distance (i : Interval) (k : ℤ) : ∃ c : ℚ, 0 < c ∧
    ((i.value * (i.unitOn k).1 - i.below k * (i.unitOn k).2 : ℕ) : ℚ) =
      |decimal (i.below k) k - i.center| * c ∧
    (((i.below k + 1) * (i.unitOn k).2 - i.value * (i.unitOn k).1 : ℕ) : ℚ) =
      |decimal (i.below k + 1) k - i.center| * c := by
  have hbelow := i.decimal_below_le k
  have habove := i.lt_decimal_above k
  obtain ⟨c, hc, hunit, hstep⟩ := i.exists_factor k
  refine ⟨c, hc, ?_, ?_⟩
  · rw [abs_of_nonpos (by linarith), Nat.cast_sub (mul_step_le_iff.mpr hbelow), Nat.cast_mul,
      Nat.cast_mul, hunit, hstep]
    unfold decimal center binary
    ring
  · rw [abs_of_nonneg (by linarith), Nat.cast_sub (mul_unit_le_iff.mpr habove.le), Nat.cast_mul,
      Nat.cast_mul, hunit, hstep]
    unfold decimal center binary
    ring

theorem down_le_up_iff (i : Interval) (k : ℤ) :
    i.value * (i.unitOn k).1 - i.below k * (i.unitOn k).2 ≤
        (i.below k + 1) * (i.unitOn k).2 - i.value * (i.unitOn k).1 ↔
      |decimal (i.below k) k - i.center| ≤ |decimal (i.below k + 1) k - i.center| := by
  obtain ⟨c, hc, hdown, hup⟩ := i.exists_distance k
  rw [← Nat.cast_le (α := ℚ), hdown, hup, mul_le_mul_iff_left₀ hc]

theorem up_le_down_iff (i : Interval) (k : ℤ) :
    (i.below k + 1) * (i.unitOn k).2 - i.value * (i.unitOn k).1 ≤
        i.value * (i.unitOn k).1 - i.below k * (i.unitOn k).2 ↔
      |decimal (i.below k + 1) k - i.center| ≤ |decimal (i.below k) k - i.center| := by
  obtain ⟨c, hc, hdown, hup⟩ := i.exists_distance k
  rw [← Nat.cast_le (α := ℚ), hdown, hup, mul_le_mul_iff_left₀ hc]

section

variable {down up preferAbove : Prop} [Decidable down] [Decidable up] [Decidable preferAbove]

theorem choice_eq_some {lower n : ℕ}
    (h : (if down ∧ up then some (if preferAbove then lower + 1 else lower)
      else if down then some lower
      else if up then some (lower + 1)
      else none) = some n) :
    (n = lower ∧ down ∧ (up → ¬preferAbove)) ∨ (n = lower + 1 ∧ up ∧ (down → preferAbove)) := by
  by_cases hdown : down <;> by_cases hup : up <;> by_cases habove : preferAbove <;>
    simp_all

theorem choice_eq_none {lower : ℕ}
    (h : (if down ∧ up then some (if preferAbove then lower + 1 else lower)
      else if down then some lower
      else if up then some (lower + 1)
      else none) = none) : ¬down ∧ ¬up := by
  by_cases hdown : down <;> by_cases hup : up <;> simp_all

end

/-- What is found on a power of ten is next to the value and in the interval, and no multiple
    in the interval is nearer. -/
theorem nearestOn_eq_some (hi : i.Proper) (h : i.nearestOn tie k = some n) :
    n ≤ i.below k + 1 ∧ i.Contains (decimal n k) ∧
      ∀ n', i.Contains (decimal n' k) →
        |decimal n k - i.center| ≤ |decimal n' k - i.center| := by
  rcases choice_eq_some h with ⟨rfl, hdown, hprefer⟩ | ⟨rfl, hup, hprefer⟩
  · have hbelow := (contains_below hi k).mp hdown
    refine ⟨Nat.le_succ _, hbelow, fun n' hn' => ?_⟩
    rcases nearer_or_nearer hi hn' with ⟨-, hnearer⟩ | ⟨habove, hnearer⟩
    · exact hnearer
    · have hnot := hprefer ((contains_above hi k).mpr habove)
      exact ((i.down_le_up_iff k).mp (not_lt.mp fun hlt => hnot (.inl hlt))).trans hnearer
  · have habove := (contains_above hi k).mp hup
    refine ⟨le_rfl, habove, fun n' hn' => ?_⟩
    rcases nearer_or_nearer hi hn' with ⟨hbelow, hnearer⟩ | ⟨-, hnearer⟩
    · have hle := (hprefer ((contains_below hi k).mpr hbelow)).elim le_of_lt fun h => h.1.le
      exact ((i.up_le_down_iff k).mp hle).trans hnearer
    · exact hnearer

/-- If nothing is found, then no multiple is in the interval. -/
theorem nearestOn_eq_none (hi : i.Proper) (h : i.nearestOn tie k = none) (n : ℕ) :
    ¬i.Contains (decimal n k) := by
  intro hn
  obtain ⟨hdown, hup⟩ := choice_eq_none h
  rcases nearer_or_nearer hi hn with ⟨hbelow, -⟩ | ⟨habove, -⟩
  · exact hdown ((contains_below hi k).mpr hbelow)
  · exact hup ((contains_above hi k).mpr habove)

/-! ## The first and the last power -/

/-- A positive number is between two powers of ten, which its digits count. -/
theorem exists_length_toDigits (hn : 0 < n) :
    ∃ d, (Nat.toDigits 10 n).length = d + 1 ∧ 10 ^ d ≤ n ∧ n < 10 ^ (d + 1) := by
  obtain ⟨d, hd⟩ := Nat.exists_eq_succ_of_ne_zero (Nat.length_toDigits_pos (b := 10) (n := n)).ne'
  refine ⟨d, hd, ?_, (Nat.length_toDigits_le_iff (by decide) (Nat.succ_pos d)).mp hd.le⟩
  cases d with
  | zero => exact hn
  | succ d =>
    by_contra hlt
    have := (Nat.length_toDigits_le_iff (by decide) (Nat.succ_pos d)).mpr (not_le.mp hlt)
    omega

theorem unitOn_natCast (i : Interval) (d : ℕ) :
    i.unitOn d = ((i.unitOn 0).1, (i.unitOn 0).2 * 10 ^ d) := by
  simp [unitOn]

theorem unitOn_neg (i : Interval) (d : ℕ) :
    i.unitOn (-d) = ((i.unitOn 0).1 * 10 ^ d, (i.unitOn 0).2) := by
  simp [unitOn]

/-- The value is between the power of ten of its leading digit and the next. -/
theorem leadingPlace_spec (hi : i.Proper) :
    decimal 1 i.leadingPlace ≤ i.center ∧ i.center < decimal 1 (i.leadingPlace + 1) := by
  have hpos : 0 < i.value * (i.unitOn 0).1 :=
    Nat.mul_pos (hi.positive.trans hi.lower) (i.unit_pos 0)
  have hstep := i.step_pos 0
  unfold center
  rw [← mul_step_le_iff, ← mul_unit_lt_iff]
  unfold leadingPlace
  dsimp only
  split
  · next hwhole =>
    obtain ⟨d, hd, hlower, hupper⟩ := exists_length_toDigits (Nat.div_pos hwhole hstep)
    rw [Nat.le_div_iff_mul_le hstep] at hlower
    rw [Nat.div_lt_iff_lt_mul hstep] at hupper
    rw [hd, Nat.cast_add_one, add_sub_cancel_right, ← Nat.cast_add_one, unitOn_natCast,
      unitOn_natCast]
    constructor <;> linarith
  · next hfraction =>
    obtain ⟨d, hd, hlower, hupper⟩ :=
      exists_length_toDigits (n := ((i.unitOn 0).2 - 1) / (i.value * (i.unitOn 0).1))
        (Nat.div_pos (by omega) hpos)
    rw [Nat.le_div_iff_mul_le hpos] at hlower
    rw [Nat.div_lt_iff_lt_mul hpos] at hupper
    rw [hd, show -((d + 1 : ℕ) : ℤ) + 1 = -(d : ℤ) by push_cast; ring, unitOn_neg, unitOn_neg]
    constructor
    · have : (i.unitOn 0).2 ≤ 10 ^ (d + 1) * (i.value * (i.unitOn 0).1) := by omega
      linarith
    · have : 10 ^ d * (i.value * (i.unitOn 0).1) < (i.unitOn 0).2 := by omega
      linarith

end Interval

/-! ## The interval of a double -/

theorem proper_ofBinary (hm : 0 < m) (e : ℤ) : (Interval.ofBinary m e).Proper := by
  constructor
  · show 0 < 4 * m - _
    split <;> omega
  · show 4 * m - _ < 4 * m
    split <;> omega
  · show 4 * m < 4 * m + 2
    omega

/-- The value of the interval is the double. -/
theorem center_ofBinary (m : ℕ) (e : ℤ) : (Interval.ofBinary m e).center = binary m e := by
  show ((4 * m : ℕ) : ℚ) * 2 ^ (e - 2) = m * 2 ^ e
  rw [two_zpow_eq e, two_zpow_eq (e - 1), sub_sub, one_add_one_eq_two]
  push_cast
  ring

/-- A power of ten that is seventeen digits behind the leading one is less than the length of
    the interval. -/
theorem decimal_lt_length (hm : Canonical m e) (h : decimal 1 (k + 16) ≤ binary m e) :
    decimal 1 k <
      binary (Interval.ofBinary m e).upper (Interval.ofBinary m e).exponent -
        binary (Interval.ofBinary m e).lower (Interval.ofBinary m e).exponent := by
  have hlower := two_mul_lower hm.positive e
  have hupper := two_mul_upper m e
  have hpos := two_zpow_pos e
  have hten : decimal 1 (k + 16) = 10 ^ 16 * decimal 1 k := by
    unfold decimal
    rw [zpow_add₀ (by norm_num)]
    norm_num
    ring
  have hlength : decimal 1 k < (2 ^ e + gapBelow m e) / 2 := by
    rw [hten] at h
    unfold gapBelow binary at *
    split
    · next hpower =>
      rw [hpower.1, show leastNormal = 2 ^ 52 from rfl, two_zpow_eq e] at h
      rw [two_zpow_eq e] at *
      push_cast at h
      linarith
    · have hbits : (m : ℚ) < 2 ^ 53 := mod_cast hm.upper
      have := mul_lt_mul_of_pos_right hbits hpos
      linarith
  linarith

/-- Seventeen digits are enough. -/
theorem exists_contains_ofBinary (hm : Canonical m e) (h : decimal 1 (k + 16) ≤ binary m e) :
    ∃ n, (Interval.ofBinary m e).Contains (decimal n k) := by
  have hlength := decimal_lt_length hm h
  have hbelow := (Interval.ofBinary m e).decimal_below_le k
  have habove := (Interval.ofBinary m e).lt_decimal_above k
  have hproper := proper_ofBinary hm.positive e
  have hstep : decimal ((Interval.ofBinary m e).below k + 1) k =
      decimal ((Interval.ofBinary m e).below k) k + decimal 1 k := by
    unfold decimal
    push_cast
    ring
  -- the multiples next to the value are not both outside
  rcases lt_or_ge (binary (Interval.ofBinary m e).lower (Interval.ofBinary m e).exponent)
      (decimal ((Interval.ofBinary m e).below k) k) with hin | hout
  · exact ⟨_, .of_lt hin, .of_lt (hbelow.trans_lt hproper.lt_upper)⟩
  · exact ⟨_, .of_lt (hproper.lower_lt.trans habove), .of_lt (by linarith)⟩

end PollScript.Decimal
