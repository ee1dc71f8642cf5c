import PollScript.Proofs.Comparisons
import PollScript.Script.Alarm

/-!
# Alarm levels and thresholds

The rule goes through half-open bands from the lowest to the highest. Where the thresholds do
not descend, it counts: a reading has the level whose number is the number of thresholds that it
reaches, also where thresholds coincide and where a reading stands on one. So a greater reading
has no lower level, and greater thresholds give no higher one. Infinite thresholds and readings
are numbers like others here, and what is no number reaches no threshold.

Results:

* `number_evaluate`: the level of a reading counts the thresholds that it reaches.
* `evaluate_counts`: so the level is monotone in the reading and antitone in the thresholds.
-/

namespace PollScript.Script

/-- The number of a level. -/
def AlarmLevel.number : AlarmLevel → Nat
  | .lv0 => 0
  | .lv1 => 1
  | .lv2 => 2
  | .lv3 => 3

namespace Alarm

/-! ## Thresholds in order -/

namespace Thresholds

/-- The thresholds do not descend. None of them can be other than a number then. -/
structure Ordered (thresholds : Thresholds) : Prop where
  lower : thresholds.lv1 ≤ thresholds.lv2
  upper : thresholds.lv2 ≤ thresholds.lv3

/-- How many of the three thresholds a reading reaches. -/
def reached (thresholds : Thresholds) (value : Float) : Nat :=
  [Threshold.lv1, .lv2, .lv3].countP fun threshold => thresholds.get threshold ≤ value

/-- No threshold is less in the second place than in the first. -/
def RaisedTo (thresholds raised : Thresholds) : Prop :=
  ∀ threshold, thresholds.get threshold ≤ raised.get threshold

variable {thresholds raised : Thresholds} {value greater : Float}

theorem reached_eq (thresholds : Thresholds) (value : Float) :
    thresholds.reached value = (if thresholds.lv1 ≤ value then 1 else 0) +
      (if thresholds.lv2 ≤ value then 1 else 0) + (if thresholds.lv3 ≤ value then 1 else 0) := by
  simp only [reached, List.countP_cons, List.countP_nil, decide_eq_true_eq]
  show 0 + (if thresholds.lv3 ≤ value then 1 else 0) + (if thresholds.lv2 ≤ value then 1 else 0) +
    (if thresholds.lv1 ≤ value then 1 else 0) = _
  omega

/-- A greater reading reaches what a reading reaches. -/
theorem reached_mono (h : value ≤ greater) :
    thresholds.reached value ≤ thresholds.reached greater := by
  refine List.countP_mono_left fun threshold _ hreached => ?_
  rw [decide_eq_true_iff] at hreached ⊢
  exact Numbers.le_trans hreached h

/-- What is reached of greater thresholds is reached of lesser ones. -/
theorem reached_anti (h : thresholds.RaisedTo raised) :
    raised.reached value ≤ thresholds.reached value := by
  refine List.countP_mono_left fun threshold _ hreached => ?_
  rw [decide_eq_true_iff] at hreached ⊢
  exact Numbers.le_trans (h threshold) hreached

end Thresholds

/-! ## Counting -/

theorem evaluate_eq (value : Float) (thresholds : Thresholds) :
    evaluate value thresholds =
      if thresholds.lv1 ≤ value ∧ value < thresholds.lv2 then .lv1
      else if thresholds.lv2 ≤ value ∧ value < thresholds.lv3 then .lv2
      else if thresholds.lv3 ≤ value then .lv3
      else .lv0 := by
  simp only [evaluate, clauses, Clause.holds, Thresholds.get, List.find?_cons, List.find?_nil]
  grind

variable {thresholds : Thresholds}

/-- Over thresholds in order, the level of a reading counts the thresholds that it
    reaches. -/
theorem number_evaluate (ordered : thresholds.Ordered) (value : Float) :
    (evaluate value thresholds).number = thresholds.reached value := by
  obtain ⟨hlower, hupper⟩ := ordered
  rw [evaluate_eq, Thresholds.reached_eq]
  by_cases h1 : thresholds.lv1 ≤ value
  · -- both are numbers, so what is not below a threshold reaches it
    obtain ⟨-, hvalue⟩ := Numbers.isNaN_of_le h1
    obtain ⟨hlv2, hlv3⟩ := Numbers.isNaN_of_le hupper
    have h32 : thresholds.lv3 ≤ value → thresholds.lv2 ≤ value := Numbers.le_trans hupper
    simp only [Numbers.lt_iff_not_le hvalue hlv2, Numbers.lt_iff_not_le hvalue hlv3]
    by_cases h2 : thresholds.lv2 ≤ value
    · by_cases h3 : thresholds.lv3 ≤ value
      · simp [h1, h2, h3, AlarmLevel.number]
      · simp [h1, h2, h3, AlarmLevel.number]
    · simp [h1, h2, mt h32 h2, AlarmLevel.number]
  · have h2 : ¬thresholds.lv2 ≤ value := fun h => h1 (Numbers.le_trans hlower h)
    have h3 : ¬thresholds.lv3 ≤ value := fun h => h2 (Numbers.le_trans hupper h)
    simp [h1, h2, h3, AlarmLevel.number]

/-- Over thresholds in order, the number of a reading's level is the number of thresholds that
    the reading reaches. A greater reading has no lower level, and no level gets higher when
    thresholds are raised and stay in order. -/
theorem evaluate_counts (ordered : thresholds.Ordered) (value : Float) :
    (evaluate value thresholds).number = thresholds.reached value ∧
      (∀ greater, value ≤ greater →
        (evaluate value thresholds).number ≤ (evaluate greater thresholds).number) ∧
      ∀ raised : Thresholds, raised.Ordered → thresholds.RaisedTo raised →
        (evaluate value raised).number ≤ (evaluate value thresholds).number := by
  refine ⟨number_evaluate ordered value, fun greater h => ?_, fun raised hraised h => ?_⟩
  · rw [number_evaluate ordered, number_evaluate ordered]
    exact Thresholds.reached_mono h
  · rw [number_evaluate hraised, number_evaluate ordered]
    exact Thresholds.reached_anti h

/-- A reading may stand on two thresholds at once, of which one is raised to infinity. -/
theorem evaluate_counts_coinciding :
    (evaluate 40 ⟨30, 40, 40⟩).number = 3 ∧
      3 ≤ (evaluate (1 / 0) ⟨30, 40, 40⟩).number ∧
      (evaluate 40 ⟨30, 40, 1 / 0⟩).number ≤ 3 := by
  have ordered : Thresholds.Ordered ⟨30, 40, 40⟩ := ⟨by decide, by decide⟩
  obtain ⟨hcount, hgreater, hraised⟩ := evaluate_counts ordered 40
  have hthree : Thresholds.reached ⟨30, 40, 40⟩ 40 = 3 := by decide
  rw [hthree] at hcount
  rw [hcount] at hgreater hraised
  refine ⟨hcount, hgreater (1 / 0) (by decide), ?_⟩
  refine hraised ⟨30, 40, 1 / 0⟩ ⟨by decide, by decide⟩ fun threshold => ?_
  cases threshold <;> decide

end Alarm

end PollScript.Script
