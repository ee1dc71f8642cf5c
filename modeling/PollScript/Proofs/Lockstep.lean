import Mathlib.Data.List.Forall2
import PollScript.Proofs.BlockTree

/-!
# Passes side by side

Two passes over block graphs of one shape go in step. They ask the same questions in
the same order, and they fail in the same place or nowhere. What one pass does is then
known from the other, as far as the answers correspond.

A correspondence says which answers do, and what an emitter may ask. That two runs of an
emitter correspond is shown once, on its own. The generator then has to show that its
answers correspond, and that the two passes stay related.

Results:

* `Program.Coupled.run`: runs of an emitter with corresponding answers end alike.
* `Generation.Couples.bind`: so do computations of the generator that are made of such
  runs.
* `Block.Along.tree_induction`: what passes from related inputs and followers to
  related blocks holds of all related blocks.
-/

namespace PollScript

open Script

/-! ## Results -/

/-- Both results are successes with related values, or both are errors, of which the
    first says what the second one says in other words. -/
inductive Agree {ε α β : Type} (translate : ε → ε) (post : α → β → Prop) :
    Except ε α → Except ε β → Prop
  | ok {a : α} {b : β} (h : post a b) : Agree translate post (.ok a) (.ok b)
  | error (e : ε) : Agree translate post (.error (translate e)) (.error e)

namespace Agree

variable {ε α β γ δ : Type} {translate : ε → ε} {mid : α → β → Prop}

theorem mono {post : α → β → Prop} {x : Except ε α} {y : Except ε β}
    (h : Agree translate mid x y) (himp : ∀ a b, mid a b → post a b) :
    Agree translate post x y := by
  cases h with
  | ok h => exact .ok (himp _ _ h)
  | error e => exact .error e

theorem and_left {P : α → Prop} {x : Except ε α} {y : Except ε β}
    (h : Agree translate mid x y) (hP : ∀ a, x = .ok a → P a) :
    Agree translate (fun a b => mid a b ∧ P a) x y := by
  cases h with
  | ok h => exact .ok ⟨h, hP _ rfl⟩
  | error e => exact .error e

theorem bind {post : γ → δ → Prop} {x : Except ε α} {y : Except ε β} {f : α → Except ε γ}
    {g : β → Except ε δ} (h : Agree translate mid x y)
    (hrest : ∀ a b, mid a b → Agree translate post (f a) (g b)) :
    Agree translate post (x >>= f) (y >>= g) := by
  cases h with
  | ok h => exact hrest _ _ h
  | error e => exact .error e

/-- Results with equal values differ in the words of their errors only. -/
theorem eq_mapError {x y : Except ε α} (h : Agree translate Eq x y) :
    x = y.mapError translate := by
  cases h with
  | ok h => rw [h]; rfl
  | error e => rfl

/-- Results that agree word by word are one error, or two successes. -/
theorem same_or_ok {post : α → β → Prop} {x : Except ε α} {y : Except ε β}
    (h : Agree translate post x y) (htranslate : ∀ e, translate e = e) :
    (∃ e, x = .error e ∧ y = .error e) ∨ ∃ a b, x = .ok a ∧ y = .ok b ∧ post a b := by
  cases h with
  | ok h => exact .inr ⟨_, _, rfl, rfl, h⟩
  | error e => exact .inl ⟨e, by rw [htranslate], rfl⟩

end Agree

/-! ## Computations of the generator -/

namespace Generation

variable {α β γ δ : Type} {translate : GenerateError → GenerateError} {R : Pass → Pass → Prop}

/-- From related passes, the computations end in related passes, and their results
    agree. -/
def Couples (translate : GenerateError → GenerateError) (R : Pass → Pass → Prop)
    (post : α → β → Prop) (x : Generation α) (y : Generation β) : Prop :=
  ∀ pass pass', R pass pass' →
    Agree translate post (x.run.run pass).1 (y.run.run pass').1 ∧
      R (x.run.run pass).2 (y.run.run pass').2

theorem Couples.pure {post : α → β → Prop} {a : α} {b : β} (h : post a b) :
    Couples translate R post (Pure.pure a) (Pure.pure b) :=
  fun _ _ hR => ⟨.ok h, hR⟩

theorem Couples.check {post : α → β → Prop} {x : Except GenerateError α}
    {y : Except GenerateError β} (h : Agree translate post x y) :
    Couples translate R post (check x) (check y) := by
  intro pass pass' hR
  rw [run_check, run_check]
  exact ⟨h, hR⟩

theorem Couples.bind {mid : α → β → Prop} {post : γ → δ → Prop} {x : Generation α}
    {y : Generation β} {f : α → Generation γ} {g : β → Generation δ}
    (h : Couples translate R mid x y)
    (hrest : ∀ a b, mid a b → Couples translate R post (f a) (g b)) :
    Couples translate R post (x >>= f) (y >>= g) := by
  intro pass pass' hR
  obtain ⟨hagree, hend⟩ := h pass pass' hR
  rw [run_bind, run_bind]
  cases hx : (x.run.run pass).1 with
  | ok a =>
    cases hy : (y.run.run pass').1 with
    | ok b =>
      rw [hx, hy] at hagree
      cases hagree with
      | ok hab => exact hrest a b hab _ _ hend
    | error e => rw [hx, hy] at hagree; cases hagree
  | error e =>
    cases hy : (y.run.run pass').1 with
    | ok b => rw [hx, hy] at hagree; cases hagree
    | error e' =>
      rw [hx, hy] at hagree
      cases hagree with
      | error => exact ⟨.error e', hend⟩

theorem Couples.mapM {ι κ : Type} {S : ι → κ → Prop} {post : α → β → Prop}
    {f : ι → Generation α} {g : κ → Generation β} {items : List ι} {others : List κ}
    (hitems : List.Forall₂ S items others)
    (h : ∀ i k, S i k → Couples translate R post (f i) (g k)) :
    Couples translate R (List.Forall₂ post) (items.mapM f) (others.mapM g) := by
  induction hitems with
  | nil => exact .pure .nil
  | cons hhead htail ih =>
    rw [List.mapM_cons, List.mapM_cons]
    refine .bind (h _ _ hhead) fun a b hab => ?_
    exact .bind ih fun as bs hrest => .pure (.cons hab hrest)

end Generation

/-! ## Emitters -/

namespace Script

/-- What two runs of an emitter may ask and do in step, and which answers to the same
    question correspond: code of values, code of bodies, texts by their slots, and what the
    contexts show. -/
structure Correspondence where
  /-- The first error in the words of the second. -/
  translate : GenerateError → GenerateError
  asks : String → Order → String → Prop
  does : Context.Operation → Context.Operation → Prop
  value : String → String → Prop
  body : String → String → Prop
  text : String → String → String → Prop
  recorded : Context.Recorded → Context.Recorded → Prop

namespace Correspondence

/-- The questions that may be asked in step. -/
def allows (k : Correspondence) : Query → Prop
  | .value slot outer default => k.asks slot outer default
  | .context _ | .report _ => False
  | _ => True

/-- The answers to a question that correspond. -/
def admits (k : Correspondence) : (query : Query) → query.Answer → query.Answer → Prop
  | .value .. => Agree k.translate k.value
  | .body _ => Agree k.translate k.body
  | .fieldText slot => Agree k.translate (k.text slot)
  | .fieldNumber _ => Agree k.translate Eq
  | .recorded => k.recorded
  | .context _ | .report _ => fun _ _ => True

end Correspondence

namespace Program

variable {α β γ δ : Type} {k : Correspondence}

/-- The programs ask and do in step what the correspondence allows, and as long as the
    answers correspond, so do the results. -/
inductive Coupled (k : Correspondence) (post : α → β → Prop) : Program α → Program β → Prop
  | done {a : α} {b : β} (h : post a b) : Coupled k post (.done a) (.done b)
  | ask {query : Query} {next : query.Answer → Program α} {next' : query.Answer → Program β}
      (allowed : k.allows query)
      (rest : ∀ answer answer', k.admits query answer answer' →
        Coupled k post (next answer) (next' answer')) :
      Coupled k post (.ask query next) (.ask query next')
  /-- Both do something to their context. -/
  | perform {operation operation' : Context.Operation} {next : operation.Answer → Program α}
      {next' : operation'.Answer → Program β} (allowed : k.does operation operation')
      (rest : ∀ answer answer', Coupled k post (next answer) (next' answer')) :
      Coupled k post (.ask (.context operation) next) (.ask (.context operation') next')
  | report {event event' : Event} {next : Unit → Program α} {next' : Unit → Program β}
      (rest : Coupled k post (next ()) (next' ())) :
      Coupled k post (.ask (.report event) next) (.ask (.report event') next')

theorem Coupled.bind {mid : α → β → Prop} {post : γ → δ → Prop} {p : Program α}
    {q : Program β} {f : α → Program γ} {g : β → Program δ} (h : Coupled k mid p q)
    (hrest : ∀ a b, mid a b → Coupled k post (f a) (g b)) :
    Coupled k post (p.bind f) (q.bind g) := by
  induction h with
  | done h => exact hrest _ _ h
  | ask allowed _ ih => exact .ask allowed ih
  | perform allowed _ ih => exact .perform allowed ih
  | report _ ih => exact .report ih

/-- Programs that go in step, run from related states with answers that correspond, end
    in related states with results that correspond. -/
theorem Coupled.run {σ : Type} {R : σ → σ → Prop}
    {answer answer' : (query : Query) → StateM σ query.Answer}
    (asks : ∀ query, k.allows query → ∀ s s', R s s' →
      k.admits query ((answer query).run s).1 ((answer' query).run s').1 ∧
        R ((answer query).run s).2 ((answer' query).run s').2)
    (does : ∀ operation operation', k.does operation operation' → ∀ s s', R s s' →
      R ((answer (.context operation)).run s).2 ((answer' (.context operation')).run s').2)
    (reports : ∀ event event' s s', R s s' →
      R ((answer (.report event)).run s).2 ((answer' (.report event')).run s').2)
    {post : α → β → Prop} {p : Program α} {q : Program β} (h : Coupled k post p q) {s s' : σ}
    (hs : R s s') :
    post ((p.run answer).run s).1 ((q.run answer').run s').1 ∧
      R ((p.run answer).run s).2 ((q.run answer').run s').2 := by
  induction h generalizing s s' with
  | done h => exact ⟨h, hs⟩
  | @ask query next next' allowed _ ih =>
    obtain ⟨hanswer, hend⟩ := asks query allowed s s' hs
    exact ih _ _ hanswer hend
  | @perform operation operation' next next' allowed _ ih =>
    exact ih _ _ (does operation operation' allowed s s' hs)
  | @report event event' next next' _ ih => exact ih (reports event event' s s' hs)

end Program

namespace Emit

variable {α β γ δ : Type} {k : Correspondence}

/-- The emitters go in step, and their results agree. -/
def Coupled (k : Correspondence) (post : α → β → Prop) (x : Emit α) (y : Emit β) : Prop :=
  Program.Coupled k (Agree k.translate post) x.run y.run

theorem Coupled.pure {post : α → β → Prop} {a : α} {b : β} (h : post a b) :
    Coupled k post (Pure.pure a) (Pure.pure b) :=
  .done (.ok h)

theorem Coupled.bind {mid : α → β → Prop} {post : γ → δ → Prop} {x : Emit α} {y : Emit β}
    {f : α → Emit γ} {g : β → Emit δ} (h : Coupled k mid x y)
    (hrest : ∀ a b, mid a b → Coupled k post (f a) (g b)) :
    Coupled k post (x >>= f) (y >>= g) := by
  refine Program.Coupled.bind h fun result result' hresult => ?_
  cases hresult with
  | ok hab => exact hrest _ _ hab
  | error e => exact .done (.error e)

theorem Coupled.check {post : α → β → Prop} {x : Except GenerateError α}
    {y : Except GenerateError β} (h : Agree k.translate post x y) :
    Coupled k post (check x) (check y) := by
  cases h with
  | ok h => exact .pure h
  | error e => exact .done (.error e)

theorem Coupled.ask (query : Query) (h : k.allows query) :
    Coupled k (k.admits query) (ask query) (ask query) :=
  Program.Coupled.ask h fun _ _ hanswer => .done (.ok hanswer)

theorem Coupled.value {slot default : String} {outer : Order} (h : k.asks slot outer default) :
    Coupled k k.value (value slot outer default) (value slot outer default) :=
  (Coupled.ask (.value slot outer default) h).bind fun _ _ hanswer => .check hanswer

theorem Coupled.fieldText {slot : String} :
    Coupled k (k.text slot) (fieldText slot) (fieldText slot) :=
  (Coupled.ask (.fieldText slot) trivial).bind fun _ _ hanswer => .check hanswer

theorem Coupled.fieldNumber {slot : String} :
    Coupled k Eq (fieldNumber slot) (fieldNumber slot) :=
  (Coupled.ask (.fieldNumber slot) trivial).bind fun _ _ hanswer => .check hanswer

theorem Coupled.recorded : Coupled k k.recorded recorded recorded :=
  Coupled.ask .recorded trivial

theorem Coupled.perform {operation operation' : Context.Operation}
    (h : k.does operation operation') :
    Coupled k (fun _ _ => True) (perform operation) (perform operation') :=
  Program.Coupled.perform h fun _ _ => .done (.ok trivial)

theorem Coupled.report {event event' : Event} :
    Coupled k (fun _ _ => True) (report event) (report event') :=
  Program.Coupled.report (.done (.ok trivial))

end Emit

end Script

/-! ## Block graphs of one shape -/

namespace Block

/-- The blocks are related by `P`, and so are the blocks in the same inputs and the
    blocks behind them. -/
inductive Along (P : Block → Block → Prop) : Block → Block → Prop
  | intro {b c : Block} (here : P b c)
      (inputs : ∀ slot, Option.Rel (Along P) (b.input? slot) (c.input? slot))
      (next : Option.Rel (Along P) b.next c.next) : Along P b c

variable {P Q : Block → Block → Prop} {b c : Block}

/-- Blocks that may or may not be there are related if those that are there are. -/
theorem rel_of_forall {x y : Option Block} {R : Block → Block → Prop} (h : Option.Rel R x y)
    (himp : ∀ child other, x = some child → R child other → Q child other) :
    Option.Rel Q x y := by
  cases h with
  | none => exact .none
  | some h => exact .some (himp _ _ rfl h)

/-- What passes from related inputs and followers to related blocks holds of all related
    blocks. -/
theorem Along.tree_induction
    (step : ∀ b c, P b c → (∀ slot, Option.Rel Q (b.input? slot) (c.input? slot)) →
      Option.Rel Q b.next c.next → Q b c) (h : Along P b c) : Q b c := by
  induction b using Block.tree_induction generalizing c with
  | step b hinputs hnext =>
    cases h with
    | intro here inputs next =>
      exact step b c here
        (fun slot => rel_of_forall (inputs slot) fun child _ hchild => hinputs slot child hchild)
        (rel_of_forall next fun follower other hfollower => hnext follower hfollower)

theorem Along.mono (h : Along P b c) (himp : ∀ b c, P b c → Q b c) : Along Q b c :=
  h.tree_induction fun b c here inputs next => .intro (himp b c here) inputs next

theorem Along.refl (hP : ∀ b, P b b) (b : Block) : Along P b b := by
  have same : ∀ {x : Option Block}, Option.Rel Eq x x := by
    intro x
    cases x with
    | none => exact .none
    | some child => exact .some rfl
  induction b using Block.tree_induction with
  | step b inputs next =>
    refine .intro (hP b) (fun slot => ?_) ?_
    · exact rel_of_forall same fun child other hchild heq => heq ▸ inputs slot child hchild
    · exact rel_of_forall same fun follower other hfollower heq => heq ▸ next follower hfollower

end Block

end PollScript
