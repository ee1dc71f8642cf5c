import PollScript.Generator
import PollScript.Proofs.Comparisons

/-!
# Numbers between bounds

A number field brings its number between the bounds of its slot, first above the least value and
then below the greatest one. Each step alone is a maximum or a minimum, as far as its bound is
given. Where the bounds are numbers and not crossed, both together keep a number between the
bounds and make another one the bound that it violates. Of a number and an equal bound the bound
is taken, so what is kept is equal to the number but may be a zero of the other sign.

Results:

* `raise_le_iff`, `le_lower_iff`: the steps are a maximum and a minimum.
* `clamp_of`: the result is the number or a bound.
* `clamp_clamp`: a number that was brought between the bounds stays as it is.
* `within_clamp`, `clamped_clamp`: where a number comes to stand, and which one it is.
-/

namespace PollScript.Generator

/-! ## Bounds -/

/-- A number is between the bounds, as far as they are given. -/
structure Within (least greatest : Option Float) (x : Float) : Prop where
  above : ∀ bound ∈ least, bound ≤ x
  below : ∀ bound ∈ greatest, x ≤ bound

/-- A number is kept if it is between the bounds, and is replaced by the bound that it violates
    otherwise. The two zeros count as one number. -/
inductive Clamped (least greatest : Option Float) (value x : Float) : Prop
  | kept (within : Within least greatest value) (same : (x == value) = true)
  | raised {bound : Float} (h : least = some bound) (lt : value < bound)
      (same : (x == bound) = true)
  | lowered {bound : Float} (h : greatest = some bound) (lt : bound < value)
      (same : (x == bound) = true)

/-! ## One bound at a time -/

/-- A number, or else the least value. -/
def raise (least : Option Float) (value : Float) : Float :=
  match least with
  | some least => if value ≤ least then least else value
  | none => value

/-- A number, or else the greatest value. -/
def lower (greatest : Option Float) (value : Float) : Float :=
  match greatest with
  | some greatest => if greatest ≤ value then greatest else value
  | none => value

theorem clamp_eq (value : Float) (least greatest : Option Float) :
    clamp value least greatest = lower greatest (raise least value) :=
  rfl

theorem raise_cases (least : Option Float) (value : Float) :
    (raise least value = value ∧ ∀ bound ∈ least, ¬value ≤ bound) ∨
      ∃ bound ∈ least, value ≤ bound ∧ raise least value = bound := by
  cases least with
  | none => exact .inl ⟨rfl, fun _ h => nomatch h⟩
  | some bound =>
    by_cases hle : value ≤ bound
    · exact .inr ⟨bound, rfl, hle, if_pos hle⟩
    · refine .inl ⟨if_neg hle, fun other hother => ?_⟩
      cases hother
      exact hle

theorem lower_cases (greatest : Option Float) (value : Float) :
    (lower greatest value = value ∧ ∀ bound ∈ greatest, ¬bound ≤ value) ∨
      ∃ bound ∈ greatest, bound ≤ value ∧ lower greatest value = bound := by
  cases greatest with
  | none => exact .inl ⟨rfl, fun _ h => nomatch h⟩
  | some bound =>
    by_cases hle : bound ≤ value
    · exact .inr ⟨bound, rfl, hle, if_pos hle⟩
    · refine .inl ⟨if_neg hle, fun other hother => ?_⟩
      cases hother
      exact hle

section

variable {least : Option Float} {value : Float}

theorem raise_of {P : Float → Prop} (hvalue : P value) (hleast : ∀ bound ∈ least, P bound) :
    P (raise least value) := by
  rcases raise_cases least value with ⟨hraise, -⟩ | ⟨bound, hbound, -, hraise⟩
  · rwa [hraise]
  · rw [hraise]
    exact hleast bound hbound

variable (hleast : ∀ bound ∈ least, bound.isNaN = false)

include hleast

/-- A number that was raised stays as it is. -/
theorem raise_raise : raise least (raise least value) = raise least value := by
  rcases raise_cases least value with ⟨hraise, -⟩ | ⟨bound, rfl, -, hraise⟩
  · rw [hraise, hraise]
  · rw [hraise]
    exact if_pos (Numbers.le_refl (hleast bound rfl))

variable (hvalue : value.isNaN = false)

include hvalue

/-- A number that is raised becomes the greater of itself and the bound. -/
theorem raise_le_iff {y : Float} :
    raise least value ≤ y ↔ value ≤ y ∧ ∀ bound ∈ least, bound ≤ y := by
  rcases raise_cases least value with ⟨hraise, hgreater⟩ | ⟨bound, rfl, hle, hraise⟩
  · rw [hraise]
    refine ⟨fun h => ⟨h, fun bound hbound => ?_⟩, fun h => h.1⟩
    have hle := Numbers.le_of_not_le hvalue (hleast bound hbound) (hgreater bound hbound)
    exact Numbers.le_trans hle h
  · rw [hraise]
    refine ⟨fun h => ⟨Numbers.le_trans hle h, fun other hother => ?_⟩, fun h => h.2 bound rfl⟩
    cases hother
    exact h

theorem le_raise : value ≤ raise least value ∧ ∀ bound ∈ least, bound ≤ raise least value :=
  (raise_le_iff hleast hvalue).mp (Numbers.le_refl (raise_of hvalue hleast))

end

section

variable {greatest : Option Float} {value : Float}

theorem lower_of {P : Float → Prop} (hvalue : P value) (hgreatest : ∀ bound ∈ greatest, P bound) :
    P (lower greatest value) := by
  rcases lower_cases greatest value with ⟨hlower, -⟩ | ⟨bound, hbound, -, hlower⟩
  · rwa [hlower]
  · rw [hlower]
    exact hgreatest bound hbound

variable (hgreatest : ∀ bound ∈ greatest, bound.isNaN = false) (hvalue : value.isNaN = false)

include hgreatest hvalue

/-- A number that is lowered becomes the less of itself and the bound. -/
theorem le_lower_iff {y : Float} :
    y ≤ lower greatest value ↔ y ≤ value ∧ ∀ bound ∈ greatest, y ≤ bound := by
  rcases lower_cases greatest value with ⟨hlower, hless⟩ | ⟨bound, rfl, hle, hlower⟩
  · rw [hlower]
    refine ⟨fun h => ⟨h, fun bound hbound => ?_⟩, fun h => h.1⟩
    have hle := Numbers.le_of_not_le (hgreatest bound hbound) hvalue (hless bound hbound)
    exact Numbers.le_trans h hle
  · rw [hlower]
    refine ⟨fun h => ⟨Numbers.le_trans h hle, fun other hother => ?_⟩, fun h => h.2 bound rfl⟩
    cases hother
    exact h

theorem lower_le :
    lower greatest value ≤ value ∧ ∀ bound ∈ greatest, lower greatest value ≤ bound :=
  (le_lower_iff hgreatest hvalue).mp (Numbers.le_refl (lower_of hvalue hgreatest))

end

/-! ## Both bounds -/

section

variable {least greatest : Option Float} {value : Float}

/-- What holds of a number and of the bounds holds of the number between the bounds. -/
theorem clamp_of {P : Float → Prop} (hvalue : P value) (hleast : ∀ bound ∈ least, P bound)
    (hgreatest : ∀ bound ∈ greatest, P bound) : P (clamp value least greatest) :=
  lower_of (raise_of hvalue hleast) hgreatest

variable (hleast : ∀ bound ∈ least, bound.isNaN = false)
  (hgreatest : ∀ bound ∈ greatest, bound.isNaN = false)

include hleast hgreatest

/-- A number that was brought between the bounds stays as it is. -/
theorem clamp_clamp :
    clamp (clamp value least greatest) least greatest = clamp value least greatest := by
  simp only [clamp_eq]
  rcases lower_cases greatest (raise least value) with ⟨hlower, -⟩ | ⟨bound, rfl, -, hlower⟩
  · rw [hlower, raise_raise hleast, hlower]
  · -- the greatest value may be raised, to a least value that is equal to it
    rw [hlower]
    rcases raise_cases least bound with ⟨hraise, -⟩ | ⟨other, -, hle, hraise⟩
    · rw [hraise]
      exact if_pos (Numbers.le_refl (hgreatest bound rfl))
    · rw [hraise]
      exact if_pos hle

variable (hvalue : value.isNaN = false)
  (uncrossed : ∀ low ∈ least, ∀ high ∈ greatest, ¬high < low)

include hvalue uncrossed

/-- If the bounds are not crossed, a number is brought between them. -/
theorem within_clamp : Within least greatest (clamp value least greatest) := by
  have hraised : (raise least value).isNaN = false := raise_of hvalue hleast
  refine ⟨fun low hlow => ?_, (lower_le hgreatest hraised).2⟩
  refine (le_lower_iff hgreatest hraised).mpr
    ⟨(le_raise hleast hvalue).2 low hlow, fun high hhigh => ?_⟩
  have hlt := uncrossed low hlow high hhigh
  rwa [Numbers.lt_iff_not_le (hgreatest high hhigh) (hleast low hlow), not_not] at hlt

/-- A number between the bounds is kept, and another one becomes the bound that it violates. -/
theorem clamped_clamp : Clamped least greatest value (clamp value least greatest) := by
  have hraised : (raise least value).isNaN = false := raise_of hvalue hleast
  obtain ⟨habove, hbelow⟩ := within_clamp hleast hgreatest hvalue uncrossed
  have hvalueRaised : value ≤ raise least value := (le_raise hleast hvalue).1
  have hclampRaised : clamp value least greatest ≤ raise least value :=
    (lower_le hgreatest hraised).1
  by_cases hlow : ∃ low ∈ least, ¬low ≤ value
  · obtain ⟨low, rfl, hless⟩ := hlow
    have hnumber := hleast low rfl
    have hupper : raise (some low) value ≤ low := by
      refine (raise_le_iff hleast hvalue).mpr ⟨Numbers.le_of_not_le hnumber hvalue hless, ?_⟩
      rintro _ ⟨⟩
      exact Numbers.le_refl hnumber
    exact .raised rfl ((Numbers.lt_iff_not_le hvalue hnumber).mpr hless)
      (Numbers.beq_of_le_of_le (Numbers.le_trans hclampRaised hupper) (habove low rfl))
  by_cases hhigh : ∃ high ∈ greatest, ¬value ≤ high
  · obtain ⟨high, rfl, hgreater⟩ := hhigh
    have hnumber := hgreatest high rfl
    have hle := Numbers.le_of_not_le hvalue hnumber hgreater
    have hlower : high ≤ clamp value least (some high) := by
      refine (le_lower_iff hgreatest hraised).mpr ⟨Numbers.le_trans hle hvalueRaised, ?_⟩
      rintro _ ⟨⟩
      exact Numbers.le_refl hnumber
    exact .lowered rfl ((Numbers.lt_iff_not_le hnumber hvalue).mpr hgreater)
      (Numbers.beq_of_le_of_le (hbelow high rfl) hlower)
  · push Not at hlow hhigh
    have hupper : raise least value ≤ value :=
      (raise_le_iff hleast hvalue).mpr ⟨Numbers.le_refl hvalue, hlow⟩
    have hlower : value ≤ clamp value least greatest :=
      (le_lower_iff hgreatest hraised).mpr ⟨hvalueRaised, hhigh⟩
    exact .kept ⟨hlow, hhigh⟩
      (Numbers.beq_of_le_of_le (Numbers.le_trans hclampRaised hupper) hlower)

end

end PollScript.Generator
