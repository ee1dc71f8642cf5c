import PollScript.Generator

/-!
# Contracts

An emitter can only ask questions, so what it does is known from what it may
ask and from what holds of every answer. A contract states both. An emitter
that keeps to a contract is verified once, on its own. The generator then has
to show that its answers are as the contract says, and that they keep an
invariant of the pass.

Results:

* `Program.Meets.run`: a program that meets a contract, run with answers that
  keep an invariant, keeps the invariant and has a result as promised.
* `Generation.Ensures.bind`: so does a computation of the generator that is
  made of such parts.
-/

namespace PollScript

/-- A sequence of two steps succeeds when both of them do. -/
theorem bind_eq_ok {ε α β : Type} {x : Except ε α} {f : α → Except ε β} {b : β} :
    (x >>= f) = .ok b ↔ ∃ a, x = .ok a ∧ f a = .ok b := by
  constructor
  · intro h
    cases x with
    | ok a => exact ⟨a, rfl, h⟩
    | error e => cases h
  · rintro ⟨a, rfl, h⟩
    exact h

namespace Script

/-- What an emitter may ask, and what it may rely on if the answer is no
    error. Values are by slot, order and default, fields by slot. -/
structure Contract where
  asks : String → Order → String → Prop
  does : Context.Operation → Prop
  value : String → Order → String → String → Prop
  body : String → String → Prop
  text : String → String → Prop
  number : String → Float → Prop
  recorded : Context.Recorded → Prop

namespace Contract

/-- The questions that may be asked. -/
def allows (k : Contract) : Query → Prop
  | .value slot outer default => k.asks slot outer default
  | .context operation => k.does operation
  | _ => True

/-- The answers that may come. -/
def admits (k : Contract) : (query : Query) → query.Answer → Prop
  | .value slot outer default, answer =>
    ∀ code, answer = .ok code → k.value slot outer default code
  | .body slot, answer => ∀ code, answer = .ok code → k.body slot code
  | .fieldText slot, answer => ∀ text, answer = .ok text → k.text slot text
  | .fieldNumber slot, answer => ∀ x, answer = .ok x → k.number slot x
  | .recorded, answer => k.recorded answer
  | .context _, _ => True
  | .report _, _ => True

end Contract

namespace Program

variable {α β : Type} {k : Contract}

/-- The program asks what the contract allows, and as long as the contract
    admits the answers, its result satisfies `post`. -/
def Meets (k : Contract) (post : α → Prop) : Program α → Prop
  | .done result => post result
  | .ask query next =>
    k.allows query ∧ ∀ answer, k.admits query answer → (next answer).Meets k post

theorem Meets.mono {p : Program α} {mid post : α → Prop} (hp : p.Meets k mid)
    (h : ∀ a, mid a → post a) : p.Meets k post := by
  induction p with
  | done a => exact h a hp
  | ask query next ih => exact ⟨hp.1, fun a ha => ih a (hp.2 a ha)⟩

theorem Meets.bind {p : Program α} {f : α → Program β} {mid : α → Prop} {post : β → Prop}
    (hp : p.Meets k mid) (hf : ∀ a, mid a → (f a).Meets k post) :
    (p.bind f).Meets k post := by
  induction p with
  | done a => exact hf a hp
  | ask query next ih => exact ⟨hp.1, fun a ha => ih a (hp.2 a ha)⟩

/-- A program that meets a contract keeps every invariant that the answers to
    allowed questions keep, and its result is as promised. -/
theorem Meets.run {σ : Type} {inv : σ → Prop}
    {answer : (query : Query) → StateM σ query.Answer}
    (keeps : ∀ query, k.allows query → ∀ s, inv s →
      inv ((answer query).run s).2 ∧ k.admits query ((answer query).run s).1)
    {p : Program α} {post : α → Prop} (hp : p.Meets k post) {s : σ} (hs : inv s) :
    inv ((p.run answer).run s).2 ∧ post ((p.run answer).run s).1 := by
  induction p generalizing s with
  | done a => exact ⟨hs, hp⟩
  | ask query next ih =>
    obtain ⟨hinv, hanswer⟩ := keeps query hp.1 s hs
    exact ih _ (hp.2 _ hanswer) hinv

end Program

namespace Emit

variable {α β : Type} {k : Contract}

/-- The emitter keeps to the contract, and if it succeeds, its result satisfies
    `post`. -/
def Meets (k : Contract) (post : α → Prop) (x : Emit α) : Prop :=
  Program.Meets k (fun result => ∀ a, result = .ok a → post a) x.run

theorem Meets.pure {post : α → Prop} {a : α} (h : post a) :
    Meets k post (Pure.pure a : Emit α) := by
  intro b hb
  cases hb
  exact h

theorem Meets.mono {x : Emit α} {mid post : α → Prop} (hx : Meets k mid x)
    (h : ∀ a, mid a → post a) : Meets k post x :=
  Program.Meets.mono hx fun _ hresult a ha => h a (hresult a ha)

theorem Meets.bind {x : Emit α} {f : α → Emit β} {mid : α → Prop} {post : β → Prop}
    (hx : Meets k mid x) (hf : ∀ a, mid a → Meets k post (f a)) : Meets k post (x >>= f) := by
  refine Program.Meets.bind hx ?_
  intro result hresult
  cases result with
  | ok a => exact hf a (hresult a rfl)
  | error e => exact fun b hb => nomatch hb

theorem Meets.check {result : Except GenerateError α} :
    Meets k (fun a => result = .ok a) (check result) := by
  cases result with
  | ok a => exact .pure rfl
  | error e => exact fun b hb => nomatch hb

theorem Meets.ask (query : Query) (h : k.allows query) :
    Meets k (k.admits query) (ask query) :=
  ⟨h, fun a ha b hb => by cases hb; exact ha⟩

theorem Meets.value {slot default : String} {outer : Order} (h : k.asks slot outer default) :
    Meets k (k.value slot outer default) (value slot outer default) :=
  (Meets.ask (.value slot outer default) h).bind fun _ ha => Meets.check.mono ha

theorem Meets.fieldText {slot : String} : Meets k (k.text slot) (fieldText slot) :=
  (Meets.ask (.fieldText slot) trivial).bind fun _ ha => Meets.check.mono ha

theorem Meets.fieldNumber {slot : String} : Meets k (k.number slot) (fieldNumber slot) :=
  (Meets.ask (.fieldNumber slot) trivial).bind fun _ ha => Meets.check.mono ha

theorem Meets.recorded : Meets k k.recorded recorded :=
  Meets.ask .recorded trivial

theorem Meets.perform {operation : Context.Operation} (h : k.does operation) :
    Meets k (fun _ => True) (perform operation) :=
  (Meets.ask (.context operation) h).bind fun _ _ => .pure trivial

theorem Meets.report {event : Event} : Meets k (fun _ => True) (report event) :=
  (Meets.ask (.report event) trivial).mono fun _ _ => trivial

end Emit

end Script

/-! ## Computations of the generator -/

open Script

namespace Generation

variable {α β : Type} {inv : Pass → Prop}

/-- A sequence goes on from the pass that its first part leaves, unless that
    part fails. -/
theorem run_bind (x : Generation α) (f : α → Generation β) (pass : Pass) :
    (x >>= f).run.run pass =
      match (x.run.run pass).1 with
      | .ok a => (f a).run.run (x.run.run pass).2
      | .error e => (.error e, (x.run.run pass).2) := by
  show (ExceptT.bindCont f (x.run.run pass).1).run (x.run.run pass).2 = _
  cases (x.run.run pass).1 <;> rfl

@[simp] theorem run_check (result : Except GenerateError α) (pass : Pass) :
    (check result).run.run pass = (result, pass) := by
  cases result <;> rfl

/-- A sequence succeeds when both of its parts do, the second in the pass that the
    first one leaves. -/
theorem exists_of_run_bind_eq_ok {x : Generation α} {f : α → Generation β} {pass : Pass} {b : β}
    (h : ((x >>= f).run.run pass).1 = .ok b) :
    ∃ a, (x.run.run pass).1 = .ok a ∧ ((f a).run.run (x.run.run pass).2).1 = .ok b ∧
      ((x >>= f).run.run pass).2 = ((f a).run.run (x.run.run pass).2).2 := by
  rw [run_bind] at h ⊢
  cases hres : (x.run.run pass).1 with
  | error e => rw [hres] at h; cases h
  | ok a =>
    rw [hres] at h
    exact ⟨a, rfl, h, rfl⟩

/-- From a pass with the invariant, the computation leaves a pass with the
    invariant, and if it succeeds, its result satisfies `post`. -/
def Ensures (inv : Pass → Prop) (post : α → Prop) (x : Generation α) : Prop :=
  ∀ pass, inv pass →
    inv (x.run.run pass).2 ∧ ∀ a, (x.run.run pass).1 = .ok a → post a

theorem Ensures.pure {post : α → Prop} {a : α} (h : post a) :
    Ensures inv post (Pure.pure a : Generation α) := by
  intro pass hpass
  refine ⟨hpass, fun b hb => ?_⟩
  cases hb
  exact h

theorem Ensures.throw {post : α → Prop} {e : GenerateError} :
    Ensures inv post (throw e : Generation α) :=
  fun _ hpass => ⟨hpass, fun _ hb => nomatch hb⟩

theorem Ensures.bind {x : Generation α} {f : α → Generation β} {mid : α → Prop} {post : β → Prop}
    (hx : Ensures inv mid x) (hf : ∀ a, mid a → Ensures inv post (f a)) :
    Ensures inv post (x >>= f) := by
  intro pass hpass
  obtain ⟨hinv, hmid⟩ := hx pass hpass
  rw [run_bind]
  cases hres : (x.run.run pass).1 with
  | ok a => exact hf a (hmid a hres) _ hinv
  | error e => exact ⟨hinv, fun _ hb => nomatch hb⟩

theorem Ensures.check {result : Except GenerateError α} :
    Ensures inv (fun a => result = .ok a) (check result) := by
  cases result with
  | ok a => exact .pure rfl
  | error e => exact .throw

theorem Ensures.mono {x : Generation α} {mid post : α → Prop} (hx : Ensures inv mid x)
    (h : ∀ a, mid a → post a) : Ensures inv post x :=
  fun pass hpass => ⟨(hx pass hpass).1, fun a ha => h a ((hx pass hpass).2 a ha)⟩

theorem Ensures.mapM {γ : Type} {f : γ → Generation α} {post : α → Prop} {items : List γ}
    (h : ∀ item ∈ items, Ensures inv post (f item)) :
    Ensures inv (fun results => ∀ a ∈ results, post a) (items.mapM f) := by
  induction items with
  | nil => exact .pure (by simp)
  | cons item rest ih =>
    rw [List.mapM_cons]
    refine .bind (h item (by simp)) fun a ha => ?_
    refine .bind (ih fun i hi => h i (by simp [hi])) fun results hresults => .pure ?_
    intro b hb
    rcases List.mem_cons.mp hb with rfl | hb
    · exact ha
    · exact hresults b hb

end Generation

end PollScript
