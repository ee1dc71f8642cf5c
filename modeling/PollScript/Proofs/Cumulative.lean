import PollScript.Proofs.BlockTree

/-!
# Cumulative judgements

Much of what is said of a pass is said part by part: the blocks that it emits, what it reports
about each of them. A judgement that tells which parts a computation adds is cumulative if a
sequence adds the parts of its first computation and then those of its second one. From such
a judgement on emissions follows the judgement on values, bodies, chains and top-level blocks,
since these are sequences of emissions.

Results:

* `Cumulative.valueOf`, `Cumulative.bodyOf`: a slot adds what the block in it adds.
* `Cumulative.link`: a chain adds what its first block adds, if that is enabled, and then what
  the chain behind it adds.
* `Cumulative.topLevel`: a top-level block adds what it adds alone or with its chain.
-/

namespace PollScript

open Script

namespace Generation

/-- The judgement tells which parts a computation adds: none with a result that is there
    already, in a sequence those of the first computation before those of the second one. Of a
    computation that fails at once it says nothing. -/
structure Cumulative {π : Type} (J : (α : Type) → List π → Generation α → Prop) : Prop where
  pure : ∀ {α : Type} (a : α), J α [] (Pure.pure a)
  throw : ∀ {α : Type} {parts : List π} (e : GenerateError), J α parts (throw e)
  bind : ∀ {α β : Type} {front back : List π} {x : Generation α} {f : α → Generation β},
    J α front x → (∀ a, J β back (f a)) → J β (front ++ back) (x >>= f)

namespace Cumulative

variable {π α β : Type} {J : (α : Type) → List π → Generation α → Prop} (h : Cumulative J)
  {front back : List π}

include h

/-- What is checked adds nothing, and the rest may rely on it. -/
theorem check_bind {result : Except GenerateError α} {f : α → Generation β}
    (hf : ∀ a, result = .ok a → J β back (f a)) : J β back (check result >>= f) := by
  cases result with
  | ok a => exact hf a rfl
  | error e => exact h.throw e

theorem check {result : Except GenerateError α} : J α [] (check result) := by
  cases result with
  | ok a => exact h.pure a
  | error e => exact h.throw e

/-- What follows a computation need not add anything. -/
theorem before {x : Generation α} {f : α → Generation β} (hx : J α front x)
    (hf : ∀ a, J β [] (f a)) : J β front (x >>= f) := by
  rw [← List.append_nil front]
  exact h.bind hx hf

theorem mapM {γ : Type} {f : γ → Generation α} {items : List γ} (parts : γ → List π)
    (each : ∀ item ∈ items, J α (parts item) (f item)) :
    J (List α) (items.flatMap parts) (items.mapM f) := by
  induction items with
  | nil => exact h.pure []
  | cons item rest ih =>
    rw [List.mapM_cons, List.flatMap_cons]
    refine h.bind (each item List.mem_cons_self) fun a => ?_
    exact h.before (ih fun i hi => each i (List.mem_cons_of_mem _ hi)) fun _ => h.pure _

/-! ## Blocks -/

open Generator

variable {g : Generator} {b : Block} (parts : Block → List π)

/-- A value adds what the connected block adds if that is enabled, and else nothing. -/
theorem valueOf {slot default : String} {outer : Order}
    (inputs : ∀ child, b.input? slot = some child → child.enabled = true →
      J _ (parts child) (g.resolve child).emitted) :
    J _ ((b.input? slot).elim [] fun child => if child.enabled then parts child else [])
      (g.valueOf b slot outer default ((b.input? slot).map g.resolve)) := by
  unfold Generator.valueOf
  refine h.check_bind fun supplied hsupplied => ?_
  cases supplied with
  | none =>
    have hdisabled := g.supplier_eq_none hsupplied
    cases hinput : b.input? slot with
    | none => exact h.pure default
    | some child =>
      have hchild : child.enabled = false := by
        simpa using hdisabled (g.resolve child) (by rw [hinput, Option.map_some])
      simp only [Option.elim_some, hchild, Bool.false_eq_true, if_false]
      exact h.pure default
  | some supplier =>
    obtain ⟨hconnected, henabled, -⟩ := g.supplier_eq_some hsupplied
    obtain ⟨child, hinput, rfl⟩ := Option.map_eq_some_iff.mp hconnected
    rw [resolve_block] at henabled
    simp only [hinput, Option.elim_some, henabled, if_true]
    exact h.before (inputs child hinput henabled) fun f => h.check

/-- A body adds what the chain in it adds. -/
theorem bodyOf {slot : String}
    (inputs : ∀ first, b.input? slot = some first →
      J _ (parts first) ((g.resolve first).chain true)) :
    J _ ((b.input? slot).elim [] parts)
      (g.bodyOf b slot ((b.input? slot).map g.resolve)) := by
  rw [bodyOf_eq]
  refine h.check_bind fun kind _ => ?_
  cases kind with
  | body =>
    cases hinput : b.input? slot with
    | none => exact h.before (h.pure "") fun code => h.pure _
    | some first => exact h.before (inputs first hinput) fun code => h.pure _
  | _ => exact h.throw _

/-- A chain adds what its first block adds, if that is enabled, and then what the chain behind
    it adds. -/
theorem link (own : List π) {emitted : Generation Fragment} {attached : Bool}
    (alone : b.enabled = true → J _ own emitted)
    (next : ∀ follower, b.next = some follower →
      J _ (parts follower) ((g.resolve follower).chain true)) :
    J _ ((if b.enabled then own else []) ++ b.next.elim [] parts)
      (g.link b emitted (b.next.map g.resolve) attached) := by
  have hown : J _ (if b.enabled then own else []) (ownCode b emitted) := by
    unfold ownCode
    split
    · next henabled => exact h.before (alone henabled) fun f => h.check
    · exact h.pure ""
  have hbehind : J _ (b.next.elim [] parts) (chainCode (b.next.map g.resolve) true) := by
    cases hnext : b.next with
    | none => exact h.pure ""
    | some follower => exact next follower hnext
  rw [link_eq]
  exact h.check_bind fun _ _ => h.bind hown fun code => h.before hbehind fun more => h.pure _

/-- A top-level block adds what it adds alone, if it is a value, or with its chain. -/
theorem topLevel {own chain : List π}
    (alone : b.enabled = true → J _ own (g.resolve b).emitted)
    (chained : J _ chain ((g.resolve b).chain false)) :
    J _ ((g.registry.get? b.type).elim [] fun spec =>
        if spec.isValueBlock then (if b.enabled then own else []) else chain)
      (g.topLevel (g.resolve b)) := by
  unfold Generator.topLevel
  rw [resolve_block]
  refine h.check_bind fun spec hspec => ?_
  rw [g.specOf_eq_ok.mp hspec, Option.elim_some]
  split
  · split
    · next henabled =>
      refine h.before (alone henabled) fun f => ?_
      cases f with
      | expression code order => exact h.pure _
      | statement code => exact h.pure _
    · exact h.pure ""
  · exact chained

end Cumulative

end Generation

end PollScript
