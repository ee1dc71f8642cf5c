import PollScript.Proofs.Registration

/-!
# Batches of block types

The names that a registration must not repeat are those of the registry and those that
stand before in the batch. Where a batch is cut in two, names go over from the one side to
the other, but it is only looked at whether a name is there. So the cut does not show, in
the types that are taken or in the fault that is reported. A batch with a fault leaves the
registry as it was, however many good types stand before the fault.

Results:

* `checkBatch_congr`: a check depends on which names are taken, not on where they stand.
* `attempt_append`: two batches are taken or refused like one, and a refused batch changes
  nothing.
-/

namespace PollScript.Registry

/-! ## Names on either side -/

/-- A check depends on which names are taken, not on where they stand. -/
theorem checkBatch_congr {r s : Registry} {before earlier : List String}
    (h : ∀ name, (name ∈ r.types ∨ name ∈ before) ↔ (name ∈ s.types ∨ name ∈ earlier))
    (batch : List BlockSpec) : r.checkBatch before batch = s.checkBatch earlier batch := by
  induction batch generalizing before earlier with
  | nil => rfl
  | cons spec rest ih =>
    have hspec : r.checkSpec before spec = s.checkSpec earlier spec := by
      rw [checkSpec_eq, checkSpec_eq]
      simp only [h]
    have hrest :
        r.checkBatch (spec.type :: before) rest = s.checkBatch (spec.type :: earlier) rest := by
      refine ih fun name => ?_
      rw [List.mem_cons, List.mem_cons, or_left_comm, h, or_left_comm]
    rw [checkBatch_cons, checkBatch_cons, hspec, hrest]

/-- Types that were taken count like types that stand before in the batch. -/
theorem checkBatch_taken (r : Registry) (front back : List BlockSpec) :
    (⟨r.specs ++ front⟩ : Registry).checkBatch [] back =
      r.checkBatch ((front.map (·.type)).reverse ++ []) back := by
  refine checkBatch_congr (fun name => ?_) back
  have htypes : (⟨r.specs ++ front⟩ : Registry).types = r.types ++ front.map (·.type) :=
    List.map_append
  simp only [htypes, List.mem_append, List.mem_reverse, List.not_mem_nil, or_false]

/-! ## Registering in place -/

/-- What comes of a batch is what its check says. -/
theorem attempt_fst (r : Registry) (batch : List BlockSpec) :
    (r.attempt batch).1 = r.checkBatch [] batch := by
  rw [attempt_eq]
  cases r.checkBatch [] batch <;> rfl

theorem attempt_snd_of_ok {r : Registry} {batch : List BlockSpec}
    (h : (r.attempt batch).1 = .ok ()) : (r.attempt batch).2 = ⟨r.specs ++ batch⟩ := by
  rw [attempt_fst] at h
  rw [attempt_eq, h]

/-- A refused batch changes nothing. -/
theorem attempt_snd_of_error {r : Registry} {batch : List BlockSpec} {e : RegistryError}
    (h : (r.attempt batch).1 = .error e) : (r.attempt batch).2 = r := by
  rw [attempt_fst] at h
  rw [attempt_eq, h]

/-- If the first batch is taken, the second one gets on with it as it would in one batch
    with the first. -/
theorem attempt_append_of_ok {r : Registry} {front : List BlockSpec}
    (h : (r.attempt front).1 = .ok ()) (back : List BlockSpec) :
    (r.attempt (front ++ back)).1 = ((r.attempt front).2.attempt back).1 := by
  rw [attempt_snd_of_ok h, attempt_fst, attempt_fst, checkBatch_append, checkBatch_taken]
  rw [attempt_fst] at h
  rw [h]
  rfl

/-- If the first batch is refused, so are both in one batch, for the same fault. -/
theorem attempt_append_of_error {r : Registry} {front : List BlockSpec} {e : RegistryError}
    (h : (r.attempt front).1 = .error e) (back : List BlockSpec) :
    (r.attempt (front ++ back)).1 = .error e := by
  rw [attempt_fst] at h ⊢
  rw [checkBatch_append, h]
  rfl

/-- Two batches are taken in one exactly if they are taken one after the other, and leave the
    same registry. They are refused in one for the fault of the first one, or else for that
    of the second one. A refused batch leaves the registry as it was. -/
theorem attempt_append (r : Registry) (front back : List BlockSpec) :
    ((r.attempt (front ++ back)).1 = .ok () ↔
        (r.attempt front).1 = .ok () ∧ ((r.attempt front).2.attempt back).1 = .ok ()) ∧
      ((r.attempt (front ++ back)).1 = .ok () →
        (r.attempt (front ++ back)).2 = ((r.attempt front).2.attempt back).2) ∧
      (∀ e, (r.attempt (front ++ back)).1 = .error e ↔
        (r.attempt front).1 = .error e ∨
          ((r.attempt front).1 = .ok () ∧ ((r.attempt front).2.attempt back).1 = .error e)) ∧
      ∀ (batch : List BlockSpec) (e : RegistryError),
        (r.attempt batch).1 = .error e → (r.attempt batch).2 = r := by
  cases hfront : (r.attempt front).1 with
  | error fault =>
    have hboth := attempt_append_of_error hfront back
    rw [hboth]
    refine ⟨?_, ?_, ?_, fun _ _ => attempt_snd_of_error⟩
    · simp
    · intro h
      cases h
    · simp
  | ok =>
    have hboth := attempt_append_of_ok hfront back
    rw [hboth]
    refine ⟨?_, ?_, ?_, fun _ _ => attempt_snd_of_error⟩
    · simp
    · intro hback
      rw [attempt_snd_of_ok (hboth.trans hback), attempt_snd_of_ok hback, attempt_snd_of_ok hfront,
        List.append_assoc]
    · simp

/-- A block type without slots. -/
def plainType (type : String) : BlockSpec :=
  ⟨type, "", [], none, true, true, 0, "", ""⟩

/-- A name that is repeated behind good types is refused with or without a cut before it.
    In one batch nothing of it is left, and without the repetition both types are. -/
theorem attempt_repeated_type :
    (empty.attempt [plainType "a", plainType "b", plainType "a"]).1 =
        .error (.duplicateBlockType "a") ∧
      (empty.attempt [plainType "a", plainType "b", plainType "a"]).2 = empty ∧
      (empty.attempt [plainType "a", plainType "b"]).2 =
        ((empty.attempt [plainType "a"]).2.attempt [plainType "b"]).2 := by
  have hcut := attempt_append empty [plainType "a", plainType "b"] [plainType "a"]
  have hrefused : (empty.attempt [plainType "a", plainType "b", plainType "a"]).1 =
      .error (.duplicateBlockType "a") :=
    (hcut.2.2.1 _).mpr (.inr ⟨rfl, rfl⟩)
  exact ⟨hrefused, hcut.2.2.2 _ _ hrefused,
    (attempt_append empty [plainType "a"] [plainType "b"]).2.1 rfl⟩

end PollScript.Registry
