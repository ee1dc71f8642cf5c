import PollScript.Proofs.DecimalGrids
import PollScript.Proofs.Numerals

/-!
# Shortest decimals

The digits that are found for a double are a shortest decimal of it: they round to the double,
no decimal with fewer digits does, and of the decimals with as many digits none that does is
nearer. The search looks at one power of ten for each number of digits. A decimal with so many
digits is a multiple of that power, or it is less than the power of the leading digit. In that
case the power itself is between the decimal and the double.

For a whole number the search ends before it comes to tenths, where the number itself would be
found. So the shortest decimal of a whole number is a whole number.

Results:

* `exists_ofScaled`: the digits of a number end before the zeros at its end.
* `exists_firstHit`: where the search ends.
* `isShortest_shortest`: the result of the search is a shortest decimal.
* `exists_shortest_of_whole`: the shortest decimal of a whole number is whole.
-/

namespace PollScript.Decimal

variable {m n : ℕ} {e k : ℤ} {tie : Tie}

/-! ## Digits and their value -/

/-- The number that digits stand for. -/
def Digits.value (d : Digits) : ℚ :=
  decimal (Nat.ofDigitChars 10 d.digits 0) (d.point - d.digits.length)

theorem decimal_mul_pow (n d : ℕ) (k : ℤ) : decimal (n * 10 ^ d) k = decimal n (k + d) := by
  unfold decimal
  rw [zpow_add₀ (by norm_num), zpow_natCast]
  push_cast
  ring

/-- Zeros at the end of a number are zeros at the end of its digits. -/
theorem toDigits_mul_pow (hn : 0 < n) (d : ℕ) :
    Nat.toDigits 10 (n * 10 ^ d) = Nat.toDigits 10 n ++ List.replicate d '0' := by
  induction d with
  | zero => simp
  | succ d ih =>
    rw [Nat.pow_succ, ← Nat.mul_assoc, Nat.mul_comm _ 10, ← Nat.add_zero (10 * _),
      ← Nat.toDigits_append_toDigits (by decide) (Nat.mul_pos hn (Nat.pow_pos (by decide)))
        (by decide), ih, List.replicate_succ', List.append_assoc]
    rfl

namespace Digits

/-- The digits of a number end where only zeros follow. -/
theorem exists_zeros (n : ℕ) (k : ℤ) : ∃ zeros : ℕ,
    Nat.toDigits 10 n = (ofScaled n k).digits ++ List.replicate zeros '0' ∧
      (ofScaled n k).point = (ofScaled n k).digits.length + zeros + k := by
  have hsplit := congrArg List.reverse (List.takeWhile_append_dropWhile
    (p := (· == '0')) (l := (Nat.toDigits 10 n).reverse))
  rw [List.reverse_append, List.reverse_reverse] at hsplit
  have hzeros : ((Nat.toDigits 10 n).reverse.takeWhile (· == '0')).reverse =
      List.replicate ((Nat.toDigits 10 n).reverse.takeWhile (· == '0')).length '0' := by
    rw [List.eq_replicate_iff]
    refine ⟨List.length_reverse, fun c hc => ?_⟩
    exact beq_iff_eq.mp (List.all_eq_true.mp List.all_takeWhile c (List.mem_reverse.mp hc))
  rw [hzeros] at hsplit
  have hlength := congrArg List.length hsplit
  rw [List.length_append, List.length_replicate] at hlength
  refine ⟨_, hsplit.symm, ?_⟩
  unfold ofScaled
  dsimp only
  omega

theorem length_ofScaled_le (n : ℕ) (k : ℤ) :
    (ofScaled n k).digits.length ≤ (Nat.toDigits 10 n).length := by
  obtain ⟨zeros, hdigits, -⟩ := exists_zeros n k
  rw [hdigits, List.length_append]
  exact Nat.le_add_right _ _

/-- The digits of a multiple of a power of ten have its value. -/
theorem value_ofScaled (n : ℕ) (k : ℤ) : (ofScaled n k).value = decimal n k := by
  obtain ⟨zeros, hdigits, hpoint⟩ := exists_zeros n k
  have hn : n = Nat.ofDigitChars 10 (ofScaled n k).digits 0 * 10 ^ zeros := by
    conv_lhs => rw [← Nat.ofDigitChars_ten_toDigits (n := n), hdigits, Nat.ofDigitChars_append,
      Nat.ofDigitChars_replicate_zero, Nat.mul_comm]
  conv_rhs => rw [hn, decimal_mul_pow]
  rw [value, hpoint]
  congr 1
  ring

/-- Zeros at the end of the number do not count as digits. -/
theorem ofScaled_mul_pow (hn : 0 < n) (d : ℕ) (k : ℤ) :
    ofScaled (n * 10 ^ d) k = ofScaled n (k + d) := by
  unfold ofScaled
  dsimp only
  rw [toDigits_mul_pow hn, List.reverse_append, List.reverse_replicate,
    List.dropWhile_append_of_pos fun c hc => beq_iff_eq.mpr (List.eq_of_mem_replicate hc),
    List.length_append, List.length_replicate]
  push_cast
  rw [add_assoc, add_comm (d : ℤ) k]

/-- Up to a power of ten there are no more digits than that power has zeros. -/
theorem length_ofScaled_le_of_le {d : ℕ} (hn : 0 < n) (hle : n ≤ 10 ^ (d + 1)) (k : ℤ) :
    (ofScaled n k).digits.length ≤ d + 1 := by
  rcases hle.lt_or_eq with hlt | rfl
  · exact (length_ofScaled_le n k).trans
      ((Nat.length_toDigits_le_iff (by decide) (Nat.succ_pos d)).mpr hlt)
  · rw [← Nat.one_mul (10 ^ (d + 1)), ofScaled_mul_pow one_pos]
    exact (length_ofScaled_le 1 _).trans (Nat.succ_pos d)

/-- In positional notation, a whole number is written as such. -/
theorem positional_ofScaled (hn : 0 < n) (d : ℕ) :
    (ofScaled n d).positional [] = Nat.toDigits 10 (n * 10 ^ d) := by
  obtain ⟨zeros, hdigits, hpoint⟩ := exists_zeros n d
  have hlength : 0 < (ofScaled n d).digits.length :=
    List.length_pos_iff.mpr (isDigits_iff.mp (proper_ofScaled hn d).isDigits).1
  rw [toDigits_mul_pow hn, hdigits, List.append_assoc, List.replicate_append_replicate]
  unfold positional
  rw [if_neg (by omega), if_pos (by omega), List.append_nil]
  congr 2
  omega

end Digits

/-! ## The search -/

/-- The first hit of a search comes behind misses only. -/
theorem exists_of_findSome?_range {α : Type} {f : ℕ → Option α} {bound : ℕ} {a : α}
    (h : (List.range bound).findSome? f = some a) :
    ∃ j < bound, f j = some a ∧ ∀ j' < j, f j' = none := by
  induction bound with
  | zero => cases h
  | succ bound ih =>
    rw [List.range_succ, List.findSome?_append, Option.or_eq_some_iff] at h
    rcases h with h | ⟨hmiss, h⟩
    · obtain ⟨j, hj, hfirst⟩ := ih h
      exact ⟨j, Nat.lt_succ_of_lt hj, hfirst⟩
    · rw [List.findSome?_singleton] at h
      refine ⟨bound, Nat.lt_succ_self bound, h, fun j' hj' => ?_⟩
      exact List.findSome?_eq_none_iff.mp hmiss j' (List.mem_range.mpr hj')

namespace Interval

variable {i : Interval} (hi : i.Proper)

include hi

/-- The search ends on the first power of ten that has a multiple in the interval, if there is
    one in time. -/
theorem exists_firstHit (last : ∃ n, i.Contains (decimal n (i.leadingPlace - 16))) (tie : Tie) :
    ∃ j n : ℕ, i.nearestOn tie (i.leadingPlace - j) = some n ∧
      (∀ j' : ℕ, j' < j → ∀ n', ¬i.Contains (decimal n' (i.leadingPlace - j'))) ∧
      i.shortest tie = Digits.ofScaled n (i.leadingPlace - j) := by
  unfold shortest
  dsimp only
  cases hfound : (List.range mostDigits).findSome? _ with
  | none =>
    obtain ⟨n, hn⟩ := last
    have hlast := List.findSome?_eq_none_iff.mp hfound 16 (List.mem_range.mpr (by decide))
    exact absurd hn (nearestOn_eq_none hi (Option.map_eq_none_iff.mp hlast) n)
  | some d =>
    obtain ⟨j, -, hj, hmiss⟩ := exists_of_findSome?_range hfound
    obtain ⟨n, hn, rfl⟩ := Option.map_eq_some_iff.mp hj
    exact ⟨j, n, hn, fun j' hj' => nearestOn_eq_none hi (Option.map_eq_none_iff.mp (hmiss j' hj')),
      rfl⟩

/-- What is found on a power of ten has no more digits than there are places from the leading
    one. -/
theorem le_of_nearestOn {j : ℕ} (h : i.nearestOn tie (i.leadingPlace - j) = some n) :
    n ≤ 10 ^ (j + 1) := by
  obtain ⟨-, hplace⟩ := leadingPlace_spec hi
  have hpower : decimal 1 (i.leadingPlace + 1) = decimal (10 ^ (j + 1)) (i.leadingPlace - j) := by
    rw [← Nat.one_mul (10 ^ (j + 1)), decimal_mul_pow]
    congr 1
    push_cast
    ring
  have hbelow := (i.decimal_below_le (i.leadingPlace - j)).trans_lt hplace
  rw [hpower, ← not_le, decimal_le_decimal, not_le] at hbelow
  exact (nearestOn_eq_some hi h).1.trans hbelow

/-- On the power of ten for its number of digits, a decimal in the interval has a multiple in
    the interval that is at least as near. -/
theorem exists_multiple {c d : ℕ} (hc : c < 10 ^ (d + 1)) (hin : i.Contains (decimal c k)) :
    ∃ n, i.Contains (decimal n (i.leadingPlace - d)) ∧
      |decimal n (i.leadingPlace - d) - i.center| ≤ |decimal c k - i.center| := by
  obtain ⟨hplace, -⟩ := leadingPlace_spec hi
  rcases le_or_gt (i.leadingPlace - d) k with hle | hlt
  · obtain ⟨t, rfl⟩ := Int.le.dest hle
    refine ⟨c * 10 ^ t, ?_⟩
    rw [decimal_mul_pow]
    exact ⟨hin, le_rfl⟩
  · -- the decimal is below the power of the leading digit
    have hpower : decimal 1 i.leadingPlace = decimal (10 ^ d) (i.leadingPlace - d) := by
      rw [← Nat.one_mul (10 ^ d), decimal_mul_pow, sub_add_cancel]
    have hbelow : decimal c k ≤ decimal 1 i.leadingPlace := by
      obtain ⟨t, ht⟩ := Int.le.dest (show k + (d + 1 : ℕ) ≤ i.leadingPlace by push_cast; omega)
      rw [← ht, add_assoc, ← Nat.cast_add, ← decimal_mul_pow, Nat.one_mul, decimal_le_decimal]
      exact hc.le.trans (Nat.pow_le_pow_right (by decide) (Nat.le_add_right _ _))
    refine ⟨10 ^ d, ?_⟩
    rw [← hpower]
    refine ⟨contains_between hi hin (.inl ⟨hbelow, hplace⟩), ?_⟩
    rw [abs_of_nonpos (by linarith), abs_of_nonpos (by linarith)]
    linarith

/-- Behind misses only, all decimals in the interval have as many digits as powers have been
    searched. -/
theorem le_length_toDigits {c j : ℕ}
    (hmiss : ∀ j' < j, ∀ n', ¬i.Contains (decimal n' (i.leadingPlace - (j' : ℕ))))
    (hin : i.Contains (decimal c k)) : j + 1 ≤ (Nat.toDigits 10 c).length := by
  by_contra hshort
  obtain ⟨d, hd⟩ := Nat.exists_eq_succ_of_ne_zero (Nat.length_toDigits_pos (b := 10) (n := c)).ne'
  have hc : c < 10 ^ (d + 1) := (Nat.length_toDigits_le_iff (by decide) (Nat.succ_pos d)).mp hd.le
  obtain ⟨n, hn, -⟩ := exists_multiple hi hc hin
  exact hmiss d (by omega) n hn

end Interval

/-! ## Shortest decimals of doubles -/

/-- Digits are a shortest decimal of a double. -/
structure Digits.IsShortest (d : Digits) (significand : ℕ) (exponent : ℤ) : Prop where
  roundsTo : RoundsTo d.value significand exponent
  /-- No decimal with fewer digits does. -/
  fewest : ∀ (c : ℕ) (k : ℤ), RoundsTo (decimal c k) significand exponent →
    d.digits.length ≤ (Nat.toDigits 10 c).length
  /-- Of the decimals with as many digits that do, none is nearer. -/
  nearest : ∀ (c : ℕ) (k : ℤ), RoundsTo (decimal c k) significand exponent →
    (Nat.toDigits 10 c).length = d.digits.length →
      |d.value - binary significand exponent| ≤ |decimal c k - binary significand exponent|

variable (hm : Canonical m e)

include hm

theorem exists_last : ∃ n, (Interval.ofBinary m e).Contains
    (decimal n ((Interval.ofBinary m e).leadingPlace - 16)) := by
  obtain ⟨hplace, -⟩ := Interval.leadingPlace_spec (proper_ofBinary hm.positive e)
  rw [center_ofBinary] at hplace
  exact exists_contains_ofBinary hm (by rwa [sub_add_cancel])

/-- The result of the search is a shortest decimal. -/
theorem isShortest_shortest (tie : Tie) : (shortest tie m e).IsShortest m e := by
  have hproper := proper_ofBinary hm.positive e
  obtain ⟨j, n, hn, hmiss, heq⟩ := Interval.exists_firstHit hproper (exists_last hm) tie
  obtain ⟨-, hin, hnearest⟩ := Interval.nearestOn_eq_some hproper hn
  have hpos := pos_of_nearestOn hproper.positive hn
  have hlength := Digits.length_ofScaled_le_of_le hpos (Interval.le_of_nearestOn hproper hn)
    ((Interval.ofBinary m e).leadingPlace - j)
  rw [center_ofBinary] at hnearest
  unfold shortest
  rw [heq]
  refine ⟨?_, fun c k hc => ?_, fun c k hc heq => ?_⟩
  · rwa [Digits.value_ofScaled, roundsTo_iff_contains hm]
  · exact hlength.trans
      (Interval.le_length_toDigits hproper hmiss ((roundsTo_iff_contains hm).mp hc))
  · rw [roundsTo_iff_contains hm] at hc
    have hc' : c < 10 ^ (j + 1) :=
      (Nat.length_toDigits_le_iff (by decide) (Nat.succ_pos j)).mp (heq.trans_le hlength)
    obtain ⟨n', hn', hnearer⟩ := Interval.exists_multiple hproper hc' hc
    rw [center_ofBinary] at hnearer
    rw [Digits.value_ofScaled]
    exact (hnearest n' hn').trans hnearer

/-- The shortest decimal of a whole number is whole. -/
theorem exists_shortest_of_whole {v : ℕ} (hv : binary m e = v) (tie : Tie) :
    ∃ n d : ℕ, 0 < n ∧ shortest tie m e = Digits.ofScaled n d ∧
      (Interval.ofBinary m e).Contains (decimal n d) := by
  have hproper := proper_ofBinary hm.positive e
  obtain ⟨j, n, hn, hmiss, heq⟩ := Interval.exists_firstHit hproper (exists_last hm) tie
  obtain ⟨-, hin, -⟩ := Interval.nearestOn_eq_some hproper hn
  obtain ⟨-, hplace⟩ := Interval.leadingPlace_spec hproper
  have hcenter := hproper.contains_center
  rw [center_ofBinary, hv] at hplace hcenter
  -- the leading digit of a positive whole number is before the point
  obtain ⟨p, hp⟩ : ∃ p : ℕ, (Interval.ofBinary m e).leadingPlace = p := by
    refine Int.eq_ofNat_of_zero_le (not_lt.mp fun hneg => ?_)
    have hone : (1 : ℚ) ≤ v := by
      have hpos : 0 < binary m e := mul_pos (Nat.cast_pos.mpr hm.positive) (two_zpow_pos e)
      rw [hv, Nat.cast_pos] at hpos
      exact_mod_cast hpos
    have hle : decimal 1 ((Interval.ofBinary m e).leadingPlace + 1) ≤ 1 := by
      rw [decimal, Nat.cast_one, one_mul]
      exact zpow_le_one_of_nonpos₀ (by norm_num) hneg
    linarith
  have hj : j ≤ p := by
    by_contra hlt
    refine hmiss p (not_le.mp hlt) v ?_
    rwa [hp, sub_self, decimal, zpow_zero, mul_one]
  have hplaces : (Interval.ofBinary m e).leadingPlace - j = (p - j : ℕ) := by
    rw [hp, Nat.cast_sub hj]
  rw [hplaces] at hn hin heq
  exact ⟨n, p - j, pos_of_nearestOn hproper.positive hn, heq, hin⟩

end PollScript.Decimal
