import Mathlib.Data.List.Forall2
import Mathlib.Data.List.Perm.Subperm
import PollScript.Proofs.Numerals
import PollScript.Script.TaskName

/-!
# Names of several tasks

Tasks are named one after the other, and each name has to be unlike those before
it. There is always such a name: of the numbered names that are tried, there is
one more than there are names taken. The user may give the same id twice, two
ids that look alike as names, or an id that looks like a numbered one.

Results:

* `choose_notMem`: the chosen name is not taken.
* `assign_nodup`: no two tasks get the same name.
* `assign_derived`: every name is made from the id of its task.
-/

namespace PollScript.Script.TaskName

/-! ## One name -/

theorem numbered_injective {id : String} {m n : Nat} (h : numbered id m = numbered id n) :
    m = n := by
  have hchars := congrArg String.toList h
  simp only [numbered, plain, String.toList_append] at hchars
  have hdigits : (toString m).toList = (toString n).toList :=
    List.append_cancel_left (List.append_cancel_left (List.append_cancel_right hchars))
  have hvalue := congrArg (fun ds => Nat.ofDigitChars 10 ds 0) hdigits
  simpa [Nat.toString_eq_ofList_toDigits] using hvalue

/-- Among one more numbered names than there are names taken, one is free. -/
theorem exists_leastFree (taken : List String) (id : String) :
    ∃ n, leastFree? taken id = some n := by
  rw [← Option.isSome_iff_exists, leastFree?, List.find?_isSome]
  by_contra hnone
  have hall : ∀ n ∈ List.range' 2 (taken.length + 1), numbered id n ∈ taken := by
    intro n hn
    by_contra hfree
    exact hnone ⟨n, hn, by simp [hfree]⟩
  have hnodup : ((List.range' 2 (taken.length + 1)).map (numbered id)).Nodup := by
    have hne : ∀ m n, m ≠ n → numbered id m ≠ numbered id n :=
      fun m n hne heq => hne (numbered_injective heq)
    exact List.Pairwise.map _ hne List.nodup_range'
  have hsubset : (List.range' 2 (taken.length + 1)).map (numbered id) ⊆ taken := by
    intro name hname
    obtain ⟨n, hn, rfl⟩ := List.mem_map.mp hname
    exact hall n hn
  have hlength := (hnodup.subperm hsubset).length_le
  simp only [List.length_map, List.length_range'] at hlength
  omega

/-- A name is kept if it is free. If it is not, the numbers from two on are tried
    until one gives a free name. -/
theorem choose_cases (taken : List String) (id : String) :
    (choose taken id = plain id ∧ plain id ∉ taken) ∨
      ∃ n, 2 ≤ n ∧ choose taken id = numbered id n ∧ numbered id n ∉ taken ∧
        plain id ∈ taken ∧ ∀ m, 2 ≤ m → m < n → numbered id m ∈ taken := by
  unfold choose
  split
  · next htaken =>
    obtain ⟨n, hn⟩ := exists_leastFree taken id
    rw [hn]
    obtain ⟨hfree, hmem, hleast⟩ := List.find?_range'_eq_some.mp hn
    rw [List.mem_range'_1] at hmem
    refine .inr ⟨n, hmem.1, rfl, by simpa using hfree, List.contains_iff_mem.mp htaken, ?_⟩
    intro m hm hmn
    simpa using hleast m hm hmn
  · next hfree =>
    exact .inl ⟨rfl, fun hmem => hfree (List.contains_iff_mem.mpr hmem)⟩

/-- The chosen name is not taken. -/
theorem choose_notMem (taken : List String) (id : String) : choose taken id ∉ taken := by
  rcases choose_cases taken id with ⟨heq, hfree⟩ | ⟨n, -, heq, hfree, -⟩
  · rw [heq]
    exact hfree
  · rw [heq]
    exact hfree

/-- The name is made from the id: as it is, or with a number from two on behind
    it. -/
def Derived (id name : String) : Prop :=
  name = plain id ∨ ∃ n, 2 ≤ n ∧ name = numbered id n

theorem derived_choose (taken : List String) (id : String) : Derived id (choose taken id) := by
  rcases choose_cases taken id with ⟨heq, -⟩ | ⟨n, hn, heq, -⟩
  · exact .inl heq
  · exact .inr ⟨n, hn, heq⟩

/-- Between its fixed ends, the name of a task has characters of names only, if
    the id has. -/
theorem Derived.exists_middle {id name : String} (h : Derived id name)
    (hid : ∀ c ∈ id.toList, isNameChar c = true) :
    ∃ middle : String, name = "task_" ++ middle ++ "_loop" ∧
      ∀ c ∈ middle.toList, isNameChar c = true := by
  rcases h with rfl | ⟨n, -, rfl⟩
  · exact ⟨id, rfl, hid⟩
  · refine ⟨id ++ "_" ++ toString n, rfl, fun c hc => ?_⟩
    rw [String.toList_append, String.toList_append, List.mem_append, List.mem_append] at hc
    rcases hc with (hc | hc) | hc
    · exact hid c hc
    · rw [List.mem_singleton.mp hc]
      decide
    · rw [Nat.toString_eq_ofList_toDigits, String.toList_ofList] at hc
      have hdigit := (isDigits_iff.mp (isDigits_toDigits n)).2 c hc
      simp [isNameChar, Char.isAlphanum, hdigit]

theorem Derived.isNameChar {id name : String} (h : Derived id name)
    (hid : ∀ c ∈ id.toList, isNameChar c = true) :
    ∀ c ∈ name.toList, Script.isNameChar c = true := by
  obtain ⟨middle, rfl, hmiddle⟩ := h.exists_middle hid
  have hends : ∀ c ∈ "task_".toList ++ "_loop".toList, Script.isNameChar c = true :=
    List.all_eq_true.mp (by decide)
  intro c hc
  rw [String.toList_append, String.toList_append, List.mem_append, List.mem_append] at hc
  rcases hc with (hc | hc) | hc
  · exact hends c (List.mem_append_left _ hc)
  · exact hmiddle c hc
  · exact hends c (List.mem_append_right _ hc)

/-! ## Several names -/

/-- The names of tasks with the given ids, chosen one after the other. -/
def assign (taken : List String) : List String → List String
  | [] => []
  | id :: rest => choose taken id :: assign (taken ++ [choose taken id]) rest

/-- No name is taken, and no two names are the same. -/
theorem assign_nodup (taken ids : List String) :
    (∀ name ∈ assign taken ids, name ∉ taken) ∧ (assign taken ids).Nodup := by
  induction ids generalizing taken with
  | nil => simp [assign]
  | cons id rest ih =>
    obtain ⟨hnew, hnodup⟩ := ih (taken ++ [choose taken id])
    rw [assign, List.nodup_cons]
    refine ⟨?_, fun hmem => hnew _ hmem (by simp), hnodup⟩
    intro name hname
    rcases List.mem_cons.mp hname with rfl | hname
    · exact choose_notMem taken id
    · exact fun hmem => hnew name hname (List.mem_append_left _ hmem)

/-- Every name is made from the id of its task. -/
theorem assign_derived (taken ids : List String) :
    List.Forall₂ Derived ids (assign taken ids) := by
  induction ids generalizing taken with
  | nil => exact .nil
  | cons id rest ih => exact .cons (derived_choose taken id) (ih _)

theorem exists_of_mem_assign {taken ids : List String} {name : String}
    (h : name ∈ assign taken ids) : ∃ id ∈ ids, Derived id name := by
  induction ids generalizing taken with
  | nil => cases h
  | cons id rest ih =>
    rcases List.mem_cons.mp h with rfl | h
    · exact ⟨id, List.mem_cons_self, derived_choose taken id⟩
    · obtain ⟨other, hother, hderived⟩ := ih h
      exact ⟨other, List.mem_cons_of_mem _ hother, hderived⟩

end PollScript.Script.TaskName
