import PollScript.Proofs.Disabled
import PollScript.Proofs.Fields
import PollScript.Proofs.Visits

/-!
# Workspaces without disabled blocks

Disabled blocks can be taken out of a workspace: out of chains, where what follows
moves up, out of sockets, and from the top level. A script does not change by that.
It can only happen that a workspace gives a script which gave an error before, since
there is less to check.

Results:

* `clean_erase`: what is left has no disabled block at any depth.
* `Visits.repeats`: an emitter that succeeds does the same with other answers if they
  agree with those that were no errors.
* `repeats_passCode`: a pass that succeeds does the same without disabled blocks.
* `generate_disabled`: disabled blocks contribute nothing to a script.
-/

namespace PollScript

open Script

/-! ## Taking blocks out -/

namespace Dictionary

variable {α β : Type}

/-- Changes the value of each key, or takes its entries out. -/
def prune (f : String → α → Option β) : Dictionary α → Dictionary β
  | [] => []
  | (k, v) :: rest =>
    match f k v with
    | some kept => (k, kept) :: prune f rest
    | none => (prune f rest).filter fun entry => entry.1 ≠ k

theorem get?_filter_ne (d : Dictionary α) (k key : String) :
    get? (d.filter fun entry => entry.1 ≠ k) key = if key = k then none else get? d key := by
  induction d with
  | nil => simp
  | cons entry rest ih =>
    obtain ⟨name, v⟩ := entry
    rw [List.filter_cons]
    by_cases hname : name = k
    · rw [if_neg (by simp [hname]), ih, get?_cons]
      by_cases hkey : key = k
      · rw [if_pos hkey, if_pos hkey]
      · rw [if_neg hkey, if_neg hkey, if_neg (by rw [hname]; exact hkey)]
    · rw [if_pos (by simpa using hname), get?_cons, get?_cons, ih]
      by_cases hkey : key = name
      · rw [if_pos hkey, if_neg (by rw [hkey]; exact hname), if_pos hkey]
      · rw [if_neg hkey, if_neg hkey]

/-- A look-up finds what becomes of the value that was found before. -/
theorem get?_prune (f : String → α → Option β) (d : Dictionary α) (key : String) :
    get? (prune f d) key = (get? d key).bind (f key) := by
  induction d with
  | nil => rfl
  | cons entry rest ih =>
    obtain ⟨k, v⟩ := entry
    rw [get?_cons, prune]
    by_cases hkey : key = k
    · subst hkey
      rw [if_pos rfl, Option.bind_some]
      cases hkept : f key v with
      | none => simp only [get?_filter_ne, if_true]
      | some kept => simp only [get?_cons, if_true]
    · rw [if_neg hkey, ← ih]
      cases hkept : f k v with
      | none => simp only [get?_filter_ne, hkey, if_false]
      | some kept => simp only [get?_cons, hkey, if_false]

end Dictionary

/-- What becomes of a block itself, and of the chain that it begins. -/
structure Erased where
  kept : Block
  chain : Option Block

namespace Registry

variable (r : Registry)

/-- The kind of a slot of a type. -/
def kindAt (type slot : String) : Option SlotKind :=
  (r.get? type).bind fun spec => (spec.slot? slot).map (·.kind)

/-- What becomes of a block in an input: a value is taken out if it is disabled, and
    statements are left with the enabled blocks of their chain. -/
def eraseInput (b : Block) (slot : String) (child : Erased) : Option Block :=
  match r.kindAt b.type slot with
  | some (.value _) => if child.kept.enabled then some child.kept else none
  | some .body => child.chain
  | _ => some child.kept

/-- A block without the disabled blocks in it and behind it. In a chain it is left
    out itself if it is disabled. -/
def eraseBlock : Block → Erased :=
  Block.fold fun b inputs next =>
    let kept := b.rewire (Dictionary.prune (r.eraseInput b) inputs) (next.bind (·.chain))
    { kept, chain := if b.enabled then some kept else next.bind (·.chain) }

/-- At the top level, a value is taken out if it is disabled, and every other block
    begins a chain. -/
def eraseTop (b : Block) : Option Block :=
  if (r.get? b.type).any (·.isValueBlock) then
    if b.enabled then some (r.eraseBlock b).kept else none
  else (r.eraseBlock b).chain

/-- The workspace without its disabled blocks. -/
def erase (w : Workspace) : Workspace where
  blocks := w.blocks.filterMap r.eraseTop

/-- The block `c` is the value in a socket of `b`, the first statement in a body of
    `b`, or what follows `b`. -/
def Holds (b c : Block) : Prop :=
  (∃ slot check, r.kindAt b.type slot = some (.value check) ∧ b.input? slot = some c) ∨
    (∃ slot, r.kindAt b.type slot = some .body ∧ b.input? slot = some c) ∨ b.next = some c

/-- No block in the sockets and bodies of the block, or behind it, is disabled, at any
    depth. -/
inductive Clean : Block → Prop
  /-- All that the block holds is enabled and holds no disabled block. -/
  | intro {b : Block} (enabled : ∀ c, r.Holds b c → c.enabled = true)
      (clean : ∀ c, r.Holds b c → Clean c) : Clean b

variable {r}

theorem eraseBlock_kept (b : Block) :
    (r.eraseBlock b).kept =
      b.rewire (Dictionary.prune (r.eraseInput b) (Dictionary.mapValues r.eraseBlock b.inputs))
        (b.next.bind fun follower => (r.eraseBlock follower).chain) := by
  rw [eraseBlock, Block.fold_eq]
  dsimp only
  rw [Option.bind_map]
  rfl

theorem eraseBlock_chain (b : Block) :
    (r.eraseBlock b).chain =
      if b.enabled then some (r.eraseBlock b).kept
      else b.next.bind fun follower => (r.eraseBlock follower).chain := by
  rw [eraseBlock, Block.fold_eq]
  dsimp only
  rw [Option.bind_map]
  rfl

/-- What is left of a block is still the same block. -/
theorem kept_eq (b : Block) :
    (r.eraseBlock b).kept.id = b.id ∧ (r.eraseBlock b).kept.type = b.type ∧
      (r.eraseBlock b).kept.enabled = b.enabled := by
  rw [eraseBlock_kept]
  exact ⟨rfl, rfl, rfl⟩

theorem input?_kept (b : Block) (slot : String) :
    (r.eraseBlock b).kept.input? slot =
      (b.input? slot).bind fun child => r.eraseInput b slot (r.eraseBlock child) := by
  rw [eraseBlock_kept]
  show Dictionary.get? (Dictionary.prune _ _) slot = _
  rw [Dictionary.get?_prune, Dictionary.get?_mapValues, Option.bind_map]
  rfl

/-- What is left of a block holds no disabled block, and what is left of a chain
    begins with an enabled one. -/
theorem clean_eraseBlock (b : Block) :
    r.Clean (r.eraseBlock b).kept ∧
      ∀ c, (r.eraseBlock b).chain = some c → c.enabled = true ∧ r.Clean c := by
  induction b using Block.tree_induction with
  | step b inputs next =>
    have htail : ∀ c, (b.next.bind fun follower => (r.eraseBlock follower).chain) = some c →
        c.enabled = true ∧ r.Clean c := by
      intro c hc
      obtain ⟨follower, hfollower, hc⟩ := Option.bind_eq_some_iff.mp hc
      exact (next follower hfollower).2 c hc
    have hkept : ∀ c, r.Holds (r.eraseBlock b).kept c → c.enabled = true ∧ r.Clean c := by
      intro c hc
      unfold Holds at hc
      rw [(kept_eq b).2.1] at hc
      rcases hc with ⟨slot, check, hkind, hc⟩ | ⟨slot, hkind, hc⟩ | hc
      · rw [input?_kept] at hc
        obtain ⟨child, hchild, hc⟩ := Option.bind_eq_some_iff.mp hc
        rw [eraseInput, hkind] at hc
        obtain ⟨henabled, hc⟩ := Option.ite_none_right_eq_some.mp hc
        rw [← Option.some.inj hc]
        exact ⟨henabled, (inputs slot child hchild).1⟩
      · rw [input?_kept] at hc
        obtain ⟨first, hfirst, hc⟩ := Option.bind_eq_some_iff.mp hc
        rw [eraseInput, hkind] at hc
        exact (inputs slot first hfirst).2 c hc
      · rw [eraseBlock_kept] at hc
        exact htail c hc
    have hclean : r.Clean (r.eraseBlock b).kept :=
      .intro (fun c hc => (hkept c hc).1) fun c hc => (hkept c hc).2
    refine ⟨hclean, fun c hc => ?_⟩
    rw [eraseBlock_chain] at hc
    by_cases henabled : b.enabled = true
    · rw [if_pos henabled] at hc
      rw [← Option.some.inj hc]
      exact ⟨(kept_eq b).2.2.trans henabled, hclean⟩
    · rw [if_neg henabled] at hc
      exact htail c hc

/-- Without its disabled blocks, a workspace has none. -/
theorem clean_erase (w : Workspace) :
    ∀ b ∈ (r.erase w).blocks, b.enabled = true ∧ r.Clean b := by
  intro b hb
  obtain ⟨top, -, hb⟩ := List.mem_filterMap.mp hb
  unfold eraseTop at hb
  split at hb
  · obtain ⟨henabled, hb⟩ := Option.ite_none_right_eq_some.mp hb
    rw [← Option.some.inj hb]
    exact ⟨(kept_eq top).2.2.trans henabled, (clean_eraseBlock top).1⟩
  · exact (clean_eraseBlock top).2 b hb

end Registry

/-! ## Computations that are repeated -/

namespace Generation

variable {α β : Type}

/-- Wherever `x` succeeds, `y` does the same. -/
def Repeats (x y : Generation α) : Prop :=
  ∀ pass a, (x.run.run pass).1 = .ok a → y.run.run pass = x.run.run pass

theorem Repeats.refl (x : Generation α) : Repeats x x :=
  fun _ _ _ => rfl

theorem Repeats.trans {x y z : Generation α} (hxy : Repeats x y) (hyz : Repeats y z) :
    Repeats x z := by
  intro pass a ha
  have hy := hxy pass a ha
  rw [← hy]
  rw [← hy] at ha
  exact hyz pass a ha

theorem Repeats.throw {e : GenerateError} {y : Generation α} : Repeats (throw e) y :=
  fun _ _ h => nomatch h

theorem Repeats.bind {x y : Generation α} {f f' : α → Generation β} (hx : Repeats x y)
    (hf : ∀ a, Repeats (f a) (f' a)) : Repeats (x >>= f) (y >>= f') := by
  intro pass b hb
  obtain ⟨a, ha, hb, -⟩ := exists_of_run_bind_eq_ok hb
  rw [run_bind, run_bind, hx pass a ha, ha]
  exact hf a _ b hb

/-- What is checked first need not be checked again. -/
theorem Repeats.check_bind {result : Except GenerateError α} {f : α → Generation β}
    {y : Generation β} (hf : ∀ a, result = .ok a → Repeats (f a) y) :
    Repeats (check result >>= f) y := by
  cases result with
  | ok a => exact hf a rfl
  | error e => exact .throw

theorem Repeats.check {result result' : Except GenerateError α}
    (h : ∀ a, result = .ok a → result' = .ok a) : Repeats (check result) (check result') := by
  cases result with
  | ok a => rw [h a rfl]; exact .refl _
  | error e => exact .throw

theorem Repeats.mapM {γ : Type} {f f' : γ → Generation α} {items : List γ}
    (h : ∀ item ∈ items, Repeats (f item) (f' item)) :
    Repeats (items.mapM f) (items.mapM f') := by
  induction items with
  | nil => exact .refl _
  | cons item rest ih =>
    rw [List.mapM_cons, List.mapM_cons]
    refine .bind (h item List.mem_cons_self) fun a => ?_
    exact .bind (ih fun i hi => h i (List.mem_cons_of_mem _ hi)) fun _ => .refl _

end Generation

/-- A program that visits slots, and that succeeds with the answers it gets, does the
    same with other answers if they agree with those that are no errors. -/
theorem Script.Program.Visits.repeats {σ : Type}
    {answer answer' : (query : Query) → StateM σ query.Answer} {isValue : Bool}
    {slots : List Slot} {p : Program (Except GenerateError Fragment)} (h : p.Visits isValue slots)
    (asides : ∀ query : Query, query.IsAside → answer' query = answer query)
    (visits : ∀ slot ∈ slots, ∀ query, slot.Poses query → ∀ s : σ,
      query.verdict ((answer query).run s).1 = .ok () →
        (answer' query).run s = (answer query).run s)
    {s : σ} {f : Fragment} (hok : ((p.run answer).run s).1 = .ok f) :
    (p.run answer').run s = (p.run answer).run s := by
  induction h generalizing s with
  | done kind => rfl
  | @aside slots query next other rest ih =>
    have hanswer : (answer' query).run s = (answer query).run s := by rw [asides query other]
    show ((next ((answer' query).run s).1).run answer').run ((answer' query).run s).2 = _
    rw [hanswer]
    exact ih _ visits hok
  | @visit slot slots query next poses rest fails ih =>
    cases hverdict : query.verdict ((answer query).run s).1 with
    | error e =>
      -- the program would have failed with the error
      have herror : (((ask query next).run answer).run s).1 = .error e :=
        (fails _ e hverdict).run _
      rw [herror] at hok
      cases hok
    | ok _ =>
      have hanswer := visits slot List.mem_cons_self query poses s hverdict
      show ((next ((answer' query).run s).1).run answer').run ((answer' query).run s).2 = _
      rw [hanswer]
      exact ih _ hverdict (fun other hother => visits other (List.mem_cons_of_mem _ hother)) hok

namespace Generator

variable {g : Generator} {b : Block} {slot : String}

/-! ## Blocks and chains -/

/-- Without disabled blocks, what is emitted for the block alone and for its chain is
    the same. A chain need not be attached any more. -/
def Survives (g : Generator) (b : Block) : Prop :=
  Generation.Repeats (g.resolve b).emitted (g.resolve (g.registry.eraseBlock b).kept).emitted ∧
    ∀ attached attached', (attached' = true → attached = true) →
      Generation.Repeats ((g.resolve b).chain attached)
        (chainCode ((g.registry.eraseBlock b).chain.map g.resolve) attached')

theorem repeats_valueOf (outer : Order) (default : String) {check : Option (List String)}
    (hkind : g.registry.kindAt b.type slot = some (.value check))
    (inputs : ∀ name child, b.input? name = some child → g.Survives child) :
    Generation.Repeats (g.valueOf b slot outer default ((b.input? slot).map g.resolve))
      (g.valueOf b slot outer default
        (((b.input? slot).bind fun child =>
          g.registry.eraseInput b slot (g.registry.eraseBlock child)).map g.resolve)) := by
  cases hinput : b.input? slot with
  | none => exact .refl _
  | some child =>
    obtain ⟨hid, htype, henabled⟩ := Registry.kept_eq (r := g.registry) child
    rw [Option.map_some, Option.bind_some, Registry.eraseInput, hkind]
    dsimp only
    by_cases hchild : child.enabled = true
    · have hkept := henabled.trans hchild
      rw [if_pos hkept, Option.map_some, valueOf_some (by rw [resolve_block, hchild]),
        valueOf_some (by rw [resolve_block, hkept]), resolve_block, resolve_block,
        checkSocket_congr hid htype]
      refine .bind (.refl _) fun _ => .bind (inputs slot child hinput).1 fun f => ?_
      rw [splice_congr hid htype]
      exact .refl _
    · rw [if_neg (by rw [henabled]; exact hchild),
        valueOf_of_disabled (by simpa using hchild)]
      exact .refl _

theorem repeats_bodyOf (hkind : g.registry.kindAt b.type slot = some .body)
    (inputs : ∀ name child, b.input? name = some child → g.Survives child) :
    Generation.Repeats (g.bodyOf b slot ((b.input? slot).map g.resolve))
      (g.bodyOf b slot
        (((b.input? slot).bind fun child =>
          g.registry.eraseInput b slot (g.registry.eraseBlock child)).map g.resolve)) := by
  cases hinput : b.input? slot with
  | none => exact .refl _
  | some first =>
    rw [Option.map_some, Option.bind_some, Registry.eraseInput, hkind, bodyOf_eq, bodyOf_eq]
    refine .bind (.refl _) fun kind => ?_
    cases kind with
    | body => exact .bind ((inputs slot first hinput).2 true true fun h => h) fun code => .refl _
    | _ => exact .refl _

/-- A block that is emitted is emitted to the same code without disabled blocks. -/
theorem repeats_emitted (hplain : g.Plain)
    (inputs : ∀ name child, b.input? name = some child → g.Survives child) :
    Generation.Repeats (g.resolve b).emitted
      (g.resolve (g.registry.eraseBlock b).kept).emitted := by
  rw [Registry.eraseBlock_kept, resolve_emitted, resolve_emitted]
  generalize hentries : Dictionary.prune (g.registry.eraseInput b)
    (Dictionary.mapValues g.registry.eraseBlock b.inputs) = entries
  generalize (b.next.bind fun follower => (g.registry.eraseBlock follower).chain) = next
  have hentry : ∀ slot, Dictionary.get? entries slot = (b.input? slot).bind fun child =>
      g.registry.eraseInput b slot (g.registry.eraseBlock child) := by
    intro slot
    have hinput := Registry.input?_kept (r := g.registry) b slot
    rw [Registry.eraseBlock_kept, hentries] at hinput
    exact hinput
  unfold emit
  rw [show (b.rewire entries next).type = b.type from rfl]
  rcases hplain b.type with ⟨-, hemitter⟩ | ⟨e, he, hname, htype, hemitter⟩
  · rw [hemitter]
    exact .throw
  rw [hemitter]
  dsimp only
  refine .bind (.refl _) fun _ => ?_
  -- both runs are of one program, which sees the other blocks by the answers to its questions
  rw [emitter_rewire he]
  intro pass f hf
  refine (visits_builtins he b g.indent).repeats ?_ ?_ hf
  · intro query hquery
    cases query with
    | recorded => rfl
    | context operation => rfl
    | report event => rfl
    | _ => exact hquery.elim
  · intro slot hslot query hquery pass hverdict
    have hkind : g.registry.kindAt b.type slot.name = some slot.kind := by
      have hslot? := BlockSpec.slot?_of_mem (validate_default e.spec (mem_catalog he)) hslot
      rw [Registry.kindAt, htype, Option.bind_some, Builtin.named_slot?, hslot?, Option.map_some]
    cases query with
    | value name outer default =>
      obtain ⟨rfl, check, hcheck⟩ := hquery
      obtain ⟨code, hcode⟩ := verdict_eq_ok_iff.mp hverdict
      simp only [answer, get?_resolved] at hcode ⊢
      have hrepeats := repeats_valueOf outer default (hcheck ▸ hkind) inputs pass code hcode
      rw [← hentry] at hrepeats
      exact hrepeats
    | body name =>
      obtain ⟨rfl, hbody⟩ := hquery
      obtain ⟨code, hcode⟩ := verdict_eq_ok_iff.mp hverdict
      simp only [answer, get?_resolved] at hcode ⊢
      have hrepeats := repeats_bodyOf (hbody ▸ hkind) inputs pass code hcode
      rw [← hentry] at hrepeats
      exact hrepeats
    | fieldText name => rw [answer, answer, (g.field_rewire b entries next name).2]
    | fieldNumber name => rw [answer, answer, (g.field_rewire b entries next name).1]
    | recorded => exact hquery.elim
    | context operation => exact hquery.elim
    | report event => exact hquery.elim

/-- The chain behind a block is the same without disabled blocks. -/
theorem repeats_chainCode
    (next : ∀ follower, b.next = some follower → g.Survives follower) (attached : Bool) :
    Generation.Repeats (chainCode (b.next.map g.resolve) true)
      (chainCode ((b.next.bind fun follower =>
        (g.registry.eraseBlock follower).chain).map g.resolve) attached) := by
  cases hnext : b.next with
  | none => exact .refl _
  | some follower => exact (next follower hnext).2 true attached fun _ => rfl

/-- What stands first in a chain has no more to pass than what is attached. -/
theorem checkLink_mono {attached attached' : Bool} (h : attached' = true → attached = true)
    (hok : g.checkLink b attached = .ok ()) : g.checkLink b attached' = .ok () := by
  cases attached' with
  | true => rw [h rfl] at hok; exact hok
  | false =>
    obtain ⟨spec, hspec, hok⟩ := bind_eq_ok.mp hok
    unfold checkLink
    rw [hspec]
    by_cases hvalue : spec.isValueBlock = true
    · rw [if_pos hvalue] at hok
      cases hok
    · simp only [bind, Except.bind, hvalue]
      rfl

theorem repeats_chain (emitted : Generation.Repeats (g.resolve b).emitted
      (g.resolve (g.registry.eraseBlock b).kept).emitted)
    (next : ∀ follower, b.next = some follower → g.Survives follower) {attached attached' : Bool}
    (h : attached' = true → attached = true) :
    Generation.Repeats ((g.resolve b).chain attached)
      (chainCode ((g.registry.eraseBlock b).chain.map g.resolve) attached') := by
  obtain ⟨hid, htype, henabled⟩ := Registry.kept_eq (r := g.registry) b
  rw [resolve_chain, link_eq, Registry.eraseBlock_chain]
  by_cases hb : b.enabled = true
  · have hkept : (g.registry.eraseBlock b).kept.next = b.next.bind fun follower =>
        (g.registry.eraseBlock follower).chain := by
      rw [Registry.eraseBlock_kept]
      rfl
    rw [if_pos hb, Option.map_some, chainCode, resolve_chain, link_eq, hkept, ownCode, ownCode,
      if_pos hb, if_pos (henabled.trans hb)]
    refine .bind (.check fun _ hok => ?_) fun _ => .bind (.bind emitted fun f => ?_) fun code => ?_
    · rw [checkLink_congr hid htype]
      exact checkLink_mono h hok
    · rw [statementOf_congr hid htype]
      exact .refl _
    · exact .bind (repeats_chainCode next true) fun more => .refl _
  · rw [if_neg hb, ownCode, if_neg hb]
    refine .check_bind fun _ _ => ?_
    simp only [pure_bind, String.empty_append, bind_pure]
    exact repeats_chainCode next attached'

/-- Every block survives. -/
theorem survives (hplain : g.Plain) (b : Block) : g.Survives b := by
  induction b using Block.tree_induction with
  | step b inputs next =>
    have emitted := repeats_emitted hplain inputs
    exact ⟨emitted, fun attached attached' h => repeats_chain emitted next h⟩

/-! ## Passes -/

/-- The code of a top-level block that may be absent. -/
def topCode (g : Generator) (top : Option Block) : Generation String :=
  match top with
  | none => pure ""
  | some b => g.topLevel (g.resolve b)

/-- What stands in a chain is no value, so it begins a chain at the top level. -/
theorem repeats_topLevel_of_chain (b : Block) :
    Generation.Repeats ((g.resolve b).chain false) (g.topLevel (g.resolve b)) := by
  intro pass code hcode
  rw [resolve_chain, link_eq] at hcode
  obtain ⟨_, hcheck, -⟩ := Generation.exists_of_run_bind_eq_ok hcode
  rw [Generation.run_check] at hcheck
  obtain ⟨spec, hspec, hok⟩ := bind_eq_ok.mp hcheck
  unfold topLevel
  rw [resolve_block, hspec]
  by_cases hvalue : spec.isValueBlock = true
  · rw [if_pos hvalue] at hok
    cases hok
  · show (if spec.isValueBlock = true then _ else (g.resolve b).chain false).run.run pass = _
    rw [if_neg hvalue]

theorem repeats_topLevel (hplain : g.Plain) (b : Block) :
    Generation.Repeats (g.topLevel (g.resolve b)) (g.topCode (g.registry.eraseTop b)) := by
  obtain ⟨emitted, chain⟩ := survives hplain b
  obtain ⟨hid, htype, henabled⟩ := Registry.kept_eq (r := g.registry) b
  unfold topLevel Registry.eraseTop
  rw [resolve_block]
  refine .check_bind fun spec hspec => ?_
  rw [g.specOf_eq_ok.mp hspec, Option.any_some]
  by_cases hvalue : spec.isValueBlock = true
  · rw [if_pos hvalue, if_pos hvalue]
    by_cases hb : b.enabled = true
    · have hkept : g.specOf (g.registry.eraseBlock b).kept = .ok spec := by
        rw [specOf_eq_ok, htype]
        exact g.specOf_eq_ok.mp hspec
      rw [if_pos hb, if_pos hb, topCode, topLevel, resolve_block, hkept]
      show Generation.Repeats _ (if spec.isValueBlock = true then _ else _)
      rw [if_pos hvalue, if_pos (henabled.trans hb)]
      exact .bind emitted fun f => .refl _
    · rw [if_neg hb, if_neg hb]
      exact .refl _
  · rw [if_neg hvalue, if_neg hvalue]
    refine .trans (chain false false fun h => h) ?_
    cases hchain : (g.registry.eraseBlock b).chain with
    | none => exact .refl _
    | some first => exact repeats_topLevel_of_chain first

/-- The code of a pass. -/
def passCode (g : Generator) (w : Workspace) : Generation String :=
  joinChunks <$> g.topLevels w

/-- A script is finalised from the code of a pass. -/
theorem generate_eq_passCode (w : Workspace) :
    g.generate w =
      match (g.passCode w).run.run ⟨Context.withIndent g.indent, []⟩ with
      | (.error e, _) => .error e
      | (.ok code, pass) => .ok (pass.context.finalize code).1 := by
  rw [generate_eq, passCode, map_eq_pure_bind, Generation.run_bind]
  obtain ⟨result, pass⟩ := (g.topLevels w).run.run ⟨Context.withIndent g.indent, []⟩
  cases result with
  | error e => rfl
  | ok chunks => rfl

/-- The texts that are not blank. -/
def solidChunks (chunks : List String) : List String :=
  chunks.filter fun code => !Text.allBlank code.toList

theorem solidChunks_cons (code : String) (chunks : List String) :
    solidChunks (code :: chunks) = solidChunks [code] ++ solidChunks chunks := by
  rw [solidChunks, solidChunks, solidChunks, ← List.filter_append, List.singleton_append]

/-- Top-level blocks that are absent add nothing to the code of a pass. -/
theorem joinChunks_topCode (f : Block → Option Block) (blocks : List Block) :
    joinChunks <$> blocks.mapM (fun b => g.topCode (f b)) =
      joinChunks <$> (blocks.filterMap f).mapM fun b => g.topLevel (g.resolve b) := by
  have hsolid : ∀ chunks : Generation (List String),
      joinChunks <$> chunks = "\n\n\n".intercalate <$> solidChunks <$> chunks := by
    intro chunks
    rw [← comp_map]
    rfl
  have hcons : ∀ (first : Generation String) (rest : Generation (List String)),
      solidChunks <$> (first >>= fun code => rest >>= fun codes => pure (code :: codes)) =
        first >>= fun code => (solidChunks [code] ++ ·) <$> solidChunks <$> rest := by
    intro first rest
    rw [map_bind]
    congr 1
    funext code
    rw [← comp_map, map_bind, map_eq_pure_bind]
    congr 1
    funext codes
    rw [map_pure, solidChunks_cons]
    rfl
  rw [hsolid, hsolid]
  congr 1
  induction blocks with
  | nil => rfl
  | cons b rest ih =>
    rw [List.mapM_cons, hcons, ih]
    cases hb : f b with
    | none =>
      rw [List.filterMap_cons_none hb, topCode, pure_bind]
      exact id_map _
    | some top => rw [List.filterMap_cons_some hb, List.mapM_cons, hcons, topCode]

/-- A pass that succeeds does the same without disabled blocks. -/
theorem repeats_passCode (hplain : g.Plain) (w : Workspace) :
    Generation.Repeats (g.passCode w) (g.passCode (g.registry.erase w)) := by
  have hchunks : Generation.Repeats (g.topLevels w)
      (w.blocks.mapM fun b => g.topCode (g.registry.eraseTop b)) :=
    .mapM fun b _ => repeats_topLevel hplain b
  have herase : g.passCode (g.registry.erase w) =
      joinChunks <$> w.blocks.mapM fun b => g.topCode (g.registry.eraseTop b) := by
    rw [joinChunks_topCode]
    rfl
  rw [herase, passCode, map_eq_pure_bind, map_eq_pure_bind]
  exact hchunks.bind fun _ => .refl _

/-- Over the default catalog, a workspace that gives a script gives the same one
    without its disabled blocks, and what is in disabled blocks does not matter to
    the script or the error that a workspace gives. -/
theorem generate_disabled {width : Nat}
    (built : (Builder.default.indentWidth width).build = .ok g) (w : Workspace) :
    (∀ script, g.generate w = .ok script → g.generate (g.registry.erase w) = .ok script) ∧
      ∀ w' : Workspace, w'.mute = w.mute → g.generate w' = g.generate w := by
  obtain ⟨hplain, -⟩ := Builder.plain_of_build built
  refine ⟨fun script h => ?_, fun w' hmute => ?_⟩
  · rw [generate_eq_passCode] at h ⊢
    split at h
    · cases h
    · next code pass hrun =>
      have hrepeats := repeats_passCode hplain w _ code (by rw [hrun])
      rw [hrepeats, hrun]
      exact h
  · rw [← generate_mute hplain w', hmute, generate_mute hplain w]

/-- A disabled assignment may be left out or assign something else. -/
theorem generate_beside_disabled :
    Generator.generate
        ⟨⟨Catalog.default⟩, Emitters.default, (Builder.default.indentWidth 4).indent⟩
        (Registry.erase ⟨Catalog.default⟩
          ⟨[⟨"b1", "variables_set", false, [], [("VALUE", ⟨"b2", "text", true, [], [], none⟩)],
            some ⟨"b3", "variables_set", true, [], [("VALUE", ⟨"b4", "text", false, [], [], none⟩)],
              none⟩⟩]⟩) = .ok "item = None\n" ∧
      Generator.generate
        ⟨⟨Catalog.default⟩, Emitters.default, (Builder.default.indentWidth 4).indent⟩
        ⟨[⟨"b1", "variables_set", false, [("VAR", .text "other")], [],
          some ⟨"b3", "variables_set", true, [],
            [("VALUE", ⟨"b4", "text", false, [("TEXT", .text "no")], [], none⟩)], none⟩⟩]⟩ =
        .ok "item = None\n" := by
  have hscript : Generator.generate
      ⟨⟨Catalog.default⟩, Emitters.default, (Builder.default.indentWidth 4).indent⟩
      ⟨[⟨"b1", "variables_set", false, [], [("VALUE", ⟨"b2", "text", true, [], [], none⟩)],
        some ⟨"b3", "variables_set", true, [], [("VALUE", ⟨"b4", "text", false, [], [], none⟩)],
          none⟩⟩]⟩ = .ok "item = None\n" := by rfl
  refine ⟨(generate_disabled (Builder.build_default 4) _).1 _ hscript, ?_⟩
  rw [← hscript]
  exact (generate_disabled (Builder.build_default 4) _).2 _ rfl

end Generator

end PollScript
