import PollScript.Script.Literal

/-!
# The shape of number literals

The literal of a finite number is a decimal numeral, with a minus sign in front
if the number is negative. The shortest decimal of a double has at least one
digit and does not begin with a zero, so no numeral has a leading zero in front
of another digit.

Results:

* `Decimal.proper_shortest`: the shortest decimal of a double begins with a digit
  other than zero.
* `Decimal.positional_cases`: where positional notation has a point.
* `Script.isNumeral_numberChars`: the literal of a finite number is a sign and a
  numeral.
-/

namespace PollScript

/-! ## Numerals -/

/-- Whether a text is one or more digits. -/
def isDigits (cs : List Char) : Bool :=
  !cs.isEmpty && cs.all Char.isDigit

/-- Whether a text is a decimal numeral: digits without a leading zero in front
    of another digit, or digits on both sides of a point. -/
def isNumeral (cs : List Char) : Bool :=
  match cs.dropWhile Char.isDigit with
  | [] => isDigits cs && (cs.head? != some '0' || cs.length == 1)
  | point :: fraction =>
    isDigits (cs.takeWhile Char.isDigit) && point == '.' && isDigits fraction

theorem isDigits_iff {cs : List Char} :
    isDigits cs = true ↔ cs ≠ [] ∧ ∀ c ∈ cs, c.isDigit = true := by
  simp [isDigits]

/-- A run of digits ends where something else follows. -/
theorem takeWhile_digits {ds : List Char} (digits : isDigits ds = true) (rest : List Char)
    (apart : ∀ c, rest.head? = some c → c.isDigit = false) :
    (ds ++ rest).takeWhile Char.isDigit = ds ∧ (ds ++ rest).dropWhile Char.isDigit = rest := by
  have all := (isDigits_iff.mp digits).2
  rw [List.takeWhile_append_of_pos all, List.dropWhile_append_of_pos all]
  cases rest with
  | nil => simp
  | cons c rest => simp [apart c rfl]

theorem isNumeral_of_digits {cs : List Char} (h : isDigits cs = true)
    (lead : cs.head? ≠ some '0' ∨ cs.length = 1) : isNumeral cs = true := by
  have hdrop : cs.dropWhile Char.isDigit = [] := by
    rw [← List.append_nil cs]
    exact List.dropWhile_append_of_pos (isDigits_iff.mp h).2
  unfold isNumeral
  rw [hdrop]
  simpa [h] using lead

theorem isNumeral_of_fraction {whole fraction : List Char} (hwhole : isDigits whole = true)
    (hfraction : isDigits fraction = true) : isNumeral (whole ++ '.' :: fraction) = true := by
  obtain ⟨htake, hdrop⟩ := takeWhile_digits hwhole ('.' :: fraction) fun c hc => by
    cases hc
    rfl
  unfold isNumeral
  rw [hdrop, htake]
  simp [hwhole, hfraction]

theorem mem_of_isNumeral {cs : List Char} (h : isNumeral cs = true) {c : Char} (hc : c ∈ cs) :
    c.isDigit = true ∨ c = '.' := by
  rw [← List.takeWhile_append_dropWhile (p := Char.isDigit) (l := cs)] at hc
  rcases List.mem_append.mp hc with hc | hc
  · exact .inl (List.all_eq_true.mp List.all_takeWhile c hc)
  · unfold isNumeral at h
    split at h
    · next hdrop => rw [hdrop] at hc; cases hc
    · next point fraction hdrop =>
      rw [hdrop] at hc
      simp only [Bool.and_eq_true, beq_iff_eq] at h
      rcases List.mem_cons.mp hc with rfl | hc
      · exact .inr h.1.2
      · exact .inl ((isDigits_iff.mp h.2).2 c hc)

/-! ## Written natural numbers -/

theorem isDigits_toDigits (n : Nat) : isDigits (Nat.toDigits 10 n) = true :=
  isDigits_iff.mpr ⟨Nat.toDigits_ne_nil,
    fun _ hc => Nat.isDigit_of_mem_toDigits (by decide) (by decide) hc⟩

/-- A positive number is written without a leading zero. -/
theorem head?_toDigits {n : Nat} (h : 0 < n) : (Nat.toDigits 10 n).head? ≠ some '0' := by
  induction n using Nat.strongRecOn with
  | ind n ih =>
    by_cases hn : n < 10
    · rw [Nat.toDigits_of_lt_base hn]
      simp
      omega
    · rw [Nat.toDigits_of_base_le (by decide) (by omega)]
      have hrec := ih (n / 10) (by omega) (by omega)
      cases hdigits : Nat.toDigits 10 (n / 10) with
      | nil => exact absurd hdigits Nat.toDigits_ne_nil
      | cons d ds => rwa [hdigits] at hrec

theorem isNumeral_toDigits (n : Nat) : isNumeral (Nat.toDigits 10 n) = true := by
  refine isNumeral_of_digits (isDigits_toDigits n) ?_
  rcases Nat.eq_zero_or_pos n with rfl | hn
  · exact .inr rfl
  · exact .inl (head?_toDigits hn)

/-! ## Shortest decimals -/

namespace Decimal

/-- The digits are digits, and the first of several is not zero. -/
structure Digits.Proper (d : Digits) : Prop where
  isDigits : isDigits d.digits = true
  /-- A zero in front stands alone before the point. -/
  lead : d.digits.head? ≠ some '0' ∨ d = ⟨['0'], 1⟩

/-- Without the zeros at its end, a text still begins with its first character
    if that is not zero. -/
theorem dropZeros_cons {d : Char} (hd : d ≠ '0') (ds : List Char) :
    ∃ rest, ((d :: ds).reverse.dropWhile (· == '0')).reverse = d :: rest ∧
      ∀ c ∈ rest, c ∈ ds := by
  refine ⟨(ds.reverse.dropWhile (· == '0')).reverse, ?_, fun c hc => ?_⟩
  · rw [List.reverse_cons, List.dropWhile_append]
    split
    · next hempty => simp [List.isEmpty_iff.mp hempty, hd]
    · rw [List.reverse_append]
      rfl
  · rw [List.mem_reverse] at hc
    exact List.mem_reverse.mp ((List.dropWhile_suffix _).mem hc)

theorem proper_ofScaled {n : Nat} (h : 0 < n) (exponent : Int) :
    (Digits.ofScaled n exponent).Proper := by
  obtain ⟨hne, hall⟩ := isDigits_iff.mp (isDigits_toDigits n)
  have hhead := head?_toDigits h
  obtain ⟨d, ds, hwritten⟩ := List.exists_cons_of_ne_nil hne
  rw [hwritten] at hall hhead
  have hd : d ≠ '0' := fun heq => hhead (by rw [heq]; rfl)
  obtain ⟨rest, hdigits, hrest⟩ := dropZeros_cons hd ds
  have heq : (Digits.ofScaled n exponent).digits = d :: rest := by
    unfold Digits.ofScaled
    rw [hwritten]
    exact hdigits
  refine ⟨?_, .inl ?_⟩
  · rw [heq]
    refine isDigits_iff.mpr ⟨List.cons_ne_nil d rest, fun c hc => hall c ?_⟩
    rcases List.mem_cons.mp hc with rfl | hc
    · exact List.mem_cons_self
    · exact List.mem_cons_of_mem _ (hrest c hc)
  · rw [heq]
    simpa using hd

/-- Of two neighbours, the lower one is only taken if it reaches far enough. -/
theorem pos_of_choice {below n : Nat} {down up above : Prop} [Decidable down] [Decidable up]
    [Decidable above] (hdown : down → 0 < below)
    (h : (if down ∧ up then some (if above then below + 1 else below)
      else if down then some below
      else if up then some (below + 1)
      else none) = some n) : 0 < n := by
  split at h
  · next hboth =>
    have hpos := hdown hboth.1
    cases h
    split <;> omega
  · split at h
    · next hreaches => cases h; exact hdown hreaches
    · split at h
      · cases h; omega
      · cases h

/-- A multiple in an interval of positive numbers is not zero. -/
theorem pos_of_nearestOn {i : Interval} (hlower : 0 < i.lower) {tie : Tie} {k : Int} {n : Nat}
    (h : i.nearestOn tie k = some n) : 0 < n := by
  have hunit : 0 < (i.unitOn k).1 :=
    Nat.mul_pos (Nat.pow_pos (by decide)) (Nat.pow_pos (by decide))
  have hproduct : 0 < i.lower * (i.unitOn k).1 := Nat.mul_pos hlower hunit
  refine pos_of_choice (fun hreaches => ?_) h
  have hmultiple : 0 < i.value * (i.unitOn k).1 / (i.unitOn k).2 * (i.unitOn k).2 := by
    split at hreaches
    · exact Nat.lt_of_lt_of_le hproduct hreaches
    · exact Nat.lt_trans hproduct hreaches
  exact Nat.pos_of_mul_pos_right hmultiple

/-- The shortest decimal of a positive number is made of digits, the first of
    which is not zero. -/
theorem proper_shortest {significand : Nat} (h : 0 < significand) (tie : Tie) (exponent : Int) :
    (shortest tie significand exponent).Proper := by
  have hlower : 0 < (Interval.ofBinary significand exponent).lower := by
    unfold Interval.ofBinary
    dsimp only
    split <;> omega
  unfold shortest Interval.shortest
  dsimp only
  cases hfound : (List.range mostDigits).findSome? _ with
  | none => exact ⟨rfl, .inr rfl⟩
  | some d =>
    obtain ⟨k, -, hk⟩ := List.exists_of_findSome?_eq_some hfound
    obtain ⟨n, hn, rfl⟩ := Option.map_eq_some_iff.mp hk
    exact proper_ofScaled (pos_of_nearestOn hlower hn) _

/-- Positional notation has the same digits in front of the point and behind it, with zeros that
    fill the places up to the point, or it has no point. -/
theorem positional_cases {d : Digits} (h : d.Proper) :
    (∃ whole fraction, d.positional [] = whole ++ '.' :: fraction ∧ isDigits whole = true ∧
        isDigits fraction = true ∧
        Nat.ofDigitChars 10 (whole ++ fraction) 0 = Nat.ofDigitChars 10 d.digits 0 ∧
        d.point = d.digits.length - fraction.length) ∨
      ∃ zeros : Nat, d.positional [] = d.digits ++ List.replicate zeros '0' ∧
        d.point = d.digits.length + zeros := by
  obtain ⟨hne, hall⟩ := isDigits_iff.mp h.isDigits
  unfold Digits.positional
  split
  · next hpoint =>
    -- all digits stand behind the point
    refine .inl ⟨['0'], List.replicate (-d.point).toNat '0' ++ d.digits, rfl, rfl, ?_, ?_, ?_⟩
    · refine isDigits_iff.mpr ⟨List.append_ne_nil_of_right_ne_nil _ hne, fun c hc => ?_⟩
      rcases List.mem_append.mp hc with hc | hc
      · rw [List.eq_of_mem_replicate hc]
        rfl
      · exact hall c hc
    · simp [Nat.ofDigitChars_cons, Nat.ofDigitChars_append]
    · rw [List.length_append, List.length_replicate]
      omega
  · split
    · next hpoint hlength =>
      -- all digits stand before the point
      refine .inr ⟨d.point.toNat - d.digits.length, List.append_nil _, ?_⟩
      omega
    · next hpoint hlength =>
      refine .inl ⟨d.digits.take d.point.toNat, d.digits.drop d.point.toNat, ?_, ?_, ?_, ?_, ?_⟩
      · rw [List.append_assoc, List.singleton_append]
      · refine isDigits_iff.mpr ⟨?_, fun c hc => hall c (List.mem_of_mem_take hc)⟩
        rw [Ne, List.take_eq_nil_iff]
        exact fun hnil => hnil.elim (by omega) hne
      · refine isDigits_iff.mpr ⟨?_, fun c hc => hall c (List.mem_of_mem_drop hc)⟩
        rw [Ne, List.drop_eq_nil_iff]
        omega
      · rw [List.take_append_drop]
      · rw [List.length_drop]
        omega

/-- Digits with zeros behind them are digits. -/
theorem isDigits_append_zeros {ds : List Char} (h : isDigits ds = true) (zeros : Nat) :
    isDigits (ds ++ List.replicate zeros '0') = true := by
  obtain ⟨hne, hall⟩ := isDigits_iff.mp h
  refine isDigits_iff.mpr ⟨List.append_ne_nil_of_left_ne_nil hne _, fun c hc => ?_⟩
  rcases List.mem_append.mp hc with hc | hc
  · exact hall c hc
  · rw [List.eq_of_mem_replicate hc]
    rfl

/-- Positional notation of proper digits is a numeral. -/
theorem isNumeral_positional {d : Digits} (h : d.Proper) : isNumeral (d.positional []) = true := by
  rcases positional_cases h with ⟨whole, fraction, heq, hwhole, hfraction, -⟩ | ⟨zeros, heq, hpoint⟩
  · rw [heq]
    exact isNumeral_of_fraction hwhole hfraction
  · rw [heq]
    refine isNumeral_of_digits (isDigits_append_zeros h.isDigits zeros) ?_
    rcases h.lead with hlead | rfl
    · left
      cases hdigits : d.digits with
      | nil => exact absurd hdigits (isDigits_iff.mp h.isDigits).1
      | cons c cs => rwa [hdigits] at hlead
    · right
      have : zeros = 0 := by
        have : (1 : Int) = 1 + zeros := hpoint
        omega
      rw [this]
      rfl

end Decimal

namespace Script

/-- The literal of a number other than zero is the sign of the number and a numeral. -/
theorem numberChars_finite (sign : Float.Model.UnpackedFloat.Sign) (significand : Nat)
    (exponent : Int) (positive : 0 < significand) :
    ∃ body, numberChars (.finite sign significand exponent positive) =
      Decimal.signText sign ++ body ∧ isNumeral body = true := by
  cases hwhole : wholeValue? significand exponent with
  | some n =>
    refine ⟨Nat.toDigits 10 n, ?_, isNumeral_toDigits n⟩
    unfold numberChars
    dsimp only
    rw [hwhole]
  | none =>
    refine ⟨_, ?_, Decimal.isNumeral_positional (Decimal.proper_shortest positive .up exponent)⟩
    unfold numberChars
    dsimp only
    rw [hwhole]
    rfl

/-- The literal of a finite number is a sign and a numeral. -/
theorem isNumeral_numberChars {u : Float.Model.UnpackedFloat} (h : u.isFinite = true) :
    ∃ sign body, numberChars u = Decimal.signText sign ++ body ∧ isNumeral body = true := by
  cases u with
  | notANumber => cases h
  | infinity sign => cases h
  | zero sign => exact ⟨.positive, ['0'], rfl, rfl⟩
  | finite sign significand exponent positive =>
    exact ⟨sign, numberChars_finite sign significand exponent positive⟩

/-- The literal of any number, also if it is a word, holds no other characters than
    those of names, signs and points. It is not empty. -/
theorem number_chars (x : Float) : number x ≠ "" ∧
    ∀ c ∈ (number x).toList, isNameChar c = true ∨ c = '-' ∨ c = '.' := by
  rw [ne_eq, ← String.toList_eq_nil_iff, number, String.toList_ofList]
  have hsign : ∀ sign, ∀ c ∈ Decimal.signText sign, c = '-' := by
    intro sign
    cases sign <;> simp [Decimal.signText]
  cases hfinite : x.toModel.unpack.isFinite with
  | true =>
    obtain ⟨sign, body, hchars, hbody⟩ := isNumeral_numberChars hfinite
    rw [hchars]
    refine ⟨fun hnil => ?_, fun c hc => ?_⟩
    · rw [(List.append_eq_nil_iff.mp hnil).2] at hbody
      cases hbody
    · rcases List.mem_append.mp hc with hc | hc
      · exact .inr (.inl (hsign sign c hc))
      · rcases mem_of_isNumeral hbody hc with hdigit | hpoint
        · exact .inl (by simp [isNameChar, Char.isAlphanum, hdigit])
        · exact .inr (.inr hpoint)
  | false =>
    have hwords : ∀ c ∈ ['N', 'a', 'N', 'i', 'n', 'f'], isNameChar c = true :=
      List.all_eq_true.mp (by decide)
    cases hunpacked : x.toModel.unpack with
    | notANumber =>
      refine ⟨List.cons_ne_nil _ _, fun c hc => .inl (hwords c ?_)⟩
      exact List.mem_append_left ['i', 'n', 'f'] hc
    | infinity sign =>
      refine ⟨List.append_ne_nil_of_right_ne_nil _ (List.cons_ne_nil _ _), fun c hc => ?_⟩
      rcases List.mem_append.mp hc with hc | hc
      · exact .inr (.inl (hsign sign c hc))
      · exact .inl (hwords c (List.mem_append_right ['N', 'a', 'N'] hc))
    | zero sign => rw [hunpacked] at hfinite; cases hfinite
    | finite sign significand exponent positive => rw [hunpacked] at hfinite; cases hfinite

end Script

end PollScript
