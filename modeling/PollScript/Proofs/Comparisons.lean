import Mathlib.Data.Int.Order.Basic
import Mathlib.Data.Prod.Lex

/-!
# Comparing numbers

Readings, thresholds and the bounds of number fields are compared in double precision. A
comparison with what is no number fails, whichever it is. Numbers are compared by their places
on a line: negative infinity, the negative numbers, zero of either sign, the positive numbers,
infinity. Two numbers of one sign are told apart by exponent and significand, the greater of
which is the number further away from zero. So for numbers the comparisons are those of a
linear order, in which the two zeros share a place.

Results:

* `compare_place`: numbers are compared by their places.
* `le_iff_place`, `lt_iff_place`, `beq_iff_place`: what each comparison says of places.
* `le_refl`, `le_trans`, `lt_iff_not_le`, `le_of_not_le`, `beq_iff_le_and_le`: the laws of the
  order.
-/

namespace PollScript.Numbers

open Float.Model

/-! ## Places -/

/-- The place of a number by its kind, its exponent and its significand. What is no number gets
    the place of zero, where nothing is looked up. -/
def unpackedPlace : UnpackedFloat → ℤ ×ₗ ℤ ×ₗ ℤ
  | .infinity .negative => toLex (-2, toLex (0, 0))
  | .finite .negative m e _ => toLex (-1, toLex (-e, -(m : ℤ)))
  | .zero _ | .notANumber => toLex (0, toLex (0, 0))
  | .finite .positive m e _ => toLex (1, toLex (e, (m : ℤ)))
  | .infinity .positive => toLex (2, toLex (0, 0))

/-- The place of a number. -/
def place (x : Float) : ℤ ×ₗ ℤ ×ₗ ℤ :=
  unpackedPlace x.toModel.unpack

theorem compare_neg (d e : ℤ) : compare (-d) (-e) = (compare d e).swap := by
  rw [← Std.OrientedCmp.eq_swap]
  show compareOfLessAndEq (-d) (-e) = compareOfLessAndEq e d
  simp only [compareOfLessAndEq, Int.neg_lt_neg_iff, Int.neg_inj, eq_comm]

theorem compare_natCast (m n : ℕ) : compare (m : ℤ) (n : ℤ) = compare m n := by
  show compareOfLessAndEq (m : ℤ) (n : ℤ) = compareOfLessAndEq m n
  simp only [compareOfLessAndEq, Int.ofNat_lt, Int.ofNat_inj]

theorem compare_positive (m n : ℕ) (d e : ℤ) :
    compare (toLex (d, (m : ℤ))) (toLex (e, (n : ℤ))) = (compare d e).then (compare m n) :=
  congrArg (compare d e).then (compare_natCast m n)

theorem compare_negative (m n : ℕ) (d e : ℤ) :
    compare (toLex (-d, -(m : ℤ))) (toLex (-e, -(n : ℤ))) =
      ((compare d e).then (compare m n)).swap := by
  rw [Ordering.swap_then, ← compare_natCast, ← compare_neg, ← compare_neg]
  rfl

/-- Numbers are compared by their places. -/
theorem compare_place {u v : UnpackedFloat} (hu : u.isNaN = false) (hv : v.isNaN = false) :
    u.compare v = some (compare (unpackedPlace u) (unpackedPlace v)) := by
  cases u with
  | notANumber => cases hu
  | infinity s =>
    cases s <;> rcases v with ⟨_ | _⟩ | _ | _ | ⟨_ | _⟩ <;> first | rfl | cases hv
  | zero s => rcases v with ⟨_ | _⟩ | _ | _ | ⟨_ | _⟩ <;> first | rfl | cases hv
  | finite s m d hm =>
    cases v with
    | notANumber => cases hv
    | infinity t => cases s <;> cases t <;> rfl
    | zero t => cases s <;> rfl
    | finite t n e hn =>
      -- the kind decides between numbers of different signs
      cases s <;> cases t
      · exact congrArg some (compare_negative m n d e).symm
      · rfl
      · rfl
      · exact congrArg some (compare_positive m n d e).symm

theorem compare_eq_none {u v : UnpackedFloat} (h : u.isNaN = true ∨ v.isNaN = true) :
    u.compare v = none := by
  rcases h with h | h
  · cases u with
    | notANumber => rfl
    | _ => cases h
  · cases v with
    | notANumber => cases u <;> rfl
    | _ => cases h

/-! ## Comparisons -/

variable {x y z : Float}

theorem le_iff_compare :
    x ≤ y ↔ (x.toModel.unpack.compare y.toModel.unpack).any (·.isLE) = true :=
  decide_eq_true_iff

/-- What stands in a comparison that holds is a number. -/
theorem isNaN_of_le (h : x ≤ y) : x.isNaN = false ∧ y.isNaN = false := by
  rw [← Bool.not_eq_true, ← Bool.not_eq_true, ← not_or]
  intro hnan
  rw [le_iff_compare, compare_eq_none hnan] at h
  cases h

theorem isNaN_of_isFinite (h : x.isFinite = true) : x.isNaN = false := by
  have hfinite : x.toModel.unpack.isFinite = true := h
  show x.toModel.unpack.isNaN = false
  cases hx : x.toModel.unpack with
  | notANumber => rw [hx] at hfinite; cases hfinite
  | _ => rfl

section

variable (hx : x.isNaN = false) (hy : y.isNaN = false)

include hx hy

theorem le_iff_place : x ≤ y ↔ place x ≤ place y := by
  rw [le_iff_compare, compare_place hx hy, Option.any_some, Ordering.isLE_iff_ne_gt]
  exact compare_le_iff_le

theorem lt_iff_place : x < y ↔ place x < place y := by
  have hcompare : x < y ↔ x.toModel.unpack.compare y.toModel.unpack = some .lt :=
    decide_eq_true_iff.trans beq_iff_eq
  rw [hcompare, compare_place hx hy, Option.some_inj]
  exact compare_lt_iff_lt

theorem beq_iff_place : (x == y) = true ↔ place x = place y := by
  show (x.toModel.unpack.compare y.toModel.unpack == some .eq) = true ↔ _
  rw [beq_iff_eq, compare_place hx hy, Option.some_inj]
  exact compare_eq_iff_eq

/-- Of two numbers one is less, or the other is at most as great. -/
theorem lt_iff_not_le : x < y ↔ ¬y ≤ x := by
  rw [lt_iff_place hx hy, le_iff_place hy hx, not_le]

theorem le_of_not_le (h : ¬x ≤ y) : y ≤ x := by
  rw [le_iff_place hx hy, not_le] at h
  exact (le_iff_place hy hx).mpr h.le

/-- Numbers are equal if neither is less. The two zeros are. -/
theorem beq_iff_le_and_le : (x == y) = true ↔ x ≤ y ∧ y ≤ x := by
  rw [beq_iff_place hx hy, le_iff_place hx hy, le_iff_place hy hx, le_antisymm_iff]

end

theorem beq_of_le_of_le (h : x ≤ y) (h' : y ≤ x) : (x == y) = true :=
  (beq_iff_le_and_le (isNaN_of_le h).1 (isNaN_of_le h).2).mpr ⟨h, h'⟩

theorem le_refl (hx : x.isNaN = false) : x ≤ x :=
  (le_iff_place hx hx).mpr le_rfl

theorem le_trans (h : x ≤ y) (h' : y ≤ z) : x ≤ z := by
  obtain ⟨hx, hy⟩ := isNaN_of_le h
  obtain ⟨-, hz⟩ := isNaN_of_le h'
  rw [le_iff_place hx hy] at h
  rw [le_iff_place hy hz] at h'
  exact (le_iff_place hx hz).mpr (h.trans h')

end PollScript.Numbers
