import PollScript.Proofs.BlockTree
import PollScript.Proofs.Registration

/-!
# Live blocks

Not every block of a workspace is emitted. A pass goes through the top-level
blocks in their order. It emits a block before what is plugged into it, and the
slots of a block in the order of its type. In a chain it leaves out the disabled
blocks with all that is in their inputs, and goes on behind them. A disabled
block in a socket is left out as well.

The live blocks are listed with their places. A place is the number of a
top-level block and the connections that lead from there to the block.

Results:

* `listBlock_eq`: what is listed for a block is made of what is listed for the
  blocks in its inputs and after it.
* `mem_live_iff`: a block is listed if and only if a pass gets to it.
* `nodup_live`: no place is listed twice.
-/

namespace PollScript

/-! ## The list -/

/-- A connection of a block. -/
inductive Edge where
  | input (slot : String)
  | next
deriving DecidableEq, Repr

/-- A block in its place below another one. -/
structure Placed where
  path : List Edge
  block : Block

/-- The place as seen from one connection further up. -/
def Placed.under (edge : Edge) (p : Placed) : Placed :=
  { p with path := edge :: p.path }

/-- A block with the blocks that are emitted when it is emitted itself, and when the chain is
    that it begins. -/
structure Listed where
  block : Block
  emission : List Placed
  chain : List Placed

namespace Listed

/-- What is emitted for the value in a slot. -/
def valueIn (inputs : List (String × Listed)) (slot : String) : List Placed :=
  match Dictionary.get? inputs slot with
  | some child =>
    if child.block.enabled then child.emission.map (Placed.under (.input slot)) else []
  | none => []

/-- What is emitted for the statements in a slot. -/
def bodyIn (inputs : List (String × Listed)) (slot : String) : List Placed :=
  match Dictionary.get? inputs slot with
  | some first => first.chain.map (Placed.under (.input slot))
  | none => []

/-- What is emitted for a slot. -/
def inSlot (inputs : List (String × Listed)) (slot : Slot) : List Placed :=
  match slot.kind with
  | .value _ => valueIn inputs slot.name
  | .body => bodyIn inputs slot.name
  | _ => []

end Listed

namespace Registry

variable (r : Registry)

/-- For a block alone, itself and then its slots in the order of its type. -/
def listEmission (b : Block) (inputs : List (String × Listed)) : List Placed :=
  ⟨[], b⟩ ::
    match r.get? b.type with
    | some spec => spec.addressableSlots.flatMap (Listed.inSlot inputs)
    | none => []

/-- For a chain, its first block unless that is disabled, and then the rest. -/
def listChain (b : Block) (emission : List Placed) (next : Option Listed) : List Placed :=
  (if b.enabled then emission else []) ++
    match next with
    | some follower => follower.chain.map (Placed.under .next)
    | none => []

/-- Lists what is emitted for a block and all that is connected to it. -/
def listBlock : Block → Listed :=
  Block.fold fun b inputs next =>
    let emission := r.listEmission b inputs
    { block := b, emission, chain := listChain b emission next }

/-- For a top-level block, a value alone if it is enabled, and else the chain. -/
def listTop (top : Listed) : List Placed :=
  match r.get? top.block.type with
  | some spec =>
    if spec.isValueBlock then (if top.block.enabled then top.emission else []) else top.chain
  | none => []

/-- The live blocks of a workspace in the order of their emission, each with the
    number of its top-level block. -/
def live (w : Workspace) : List (Nat × Placed) :=
  w.blocks.zipIdx.flatMap fun top => (r.listTop (r.listBlock top.1)).map fun p => (top.2, p)

/-- The live blocks without their places. -/
def liveBlocks (w : Workspace) : List Block :=
  (r.live w).map (·.2.block)

/-- What is listed for a block is made of what is listed for the blocks in its
    inputs and after it. -/
theorem listBlock_eq (b : Block) :
    r.listBlock b =
      { block := b
        emission := r.listEmission b (Dictionary.mapValues r.listBlock b.inputs)
        chain := listChain b (r.listEmission b (Dictionary.mapValues r.listBlock b.inputs))
          (b.next.map r.listBlock) } :=
  Block.fold_eq _ b

@[simp] theorem listBlock_block (b : Block) : (r.listBlock b).block = b := by
  rw [listBlock_eq]

theorem listBlock_emission (b : Block) :
    (r.listBlock b).emission =
      r.listEmission b (Dictionary.mapValues r.listBlock b.inputs) := by
  rw [listBlock_eq]

theorem listBlock_chain (b : Block) :
    (r.listBlock b).chain =
      listChain b (r.listBlock b).emission (b.next.map r.listBlock) := by
  rw [listBlock_eq]

theorem valueIn_eq (b : Block) (slot : String) :
    Listed.valueIn (Dictionary.mapValues r.listBlock b.inputs) slot =
      match b.input? slot with
      | some child =>
        if child.enabled then (r.listBlock child).emission.map (Placed.under (.input slot))
        else []
      | none => [] := by
  rw [Listed.valueIn, Dictionary.get?_mapValues, ← Block.input?]
  cases b.input? slot <;> simp

theorem bodyIn_eq (b : Block) (slot : String) :
    Listed.bodyIn (Dictionary.mapValues r.listBlock b.inputs) slot =
      match b.input? slot with
      | some first => (r.listBlock first).chain.map (Placed.under (.input slot))
      | none => [] := by
  rw [Listed.bodyIn, Dictionary.get?_mapValues, ← Block.input?]
  cases b.input? slot <;> simp

/-! ## What is said of the listed blocks -/

section Said

variable {α : Type} (f : Placed → α) (b : Block)

/-- What is said of a value is said of the connected block in its place, if it is enabled. -/
theorem map_valueIn (slot : String) :
    (Listed.valueIn (Dictionary.mapValues r.listBlock b.inputs) slot).map f =
      (b.input? slot).elim [] fun child =>
        if child.enabled then
          (r.listBlock child).emission.map fun p => f (p.under (.input slot))
        else [] := by
  rw [valueIn_eq]
  cases b.input? slot with
  | none => rfl
  | some child =>
    dsimp only [Option.elim_some]
    split
    · exact List.map_map
    · rfl

theorem map_bodyIn (slot : String) :
    (Listed.bodyIn (Dictionary.mapValues r.listBlock b.inputs) slot).map f =
      (b.input? slot).elim [] fun first =>
        (r.listBlock first).chain.map fun p => f (p.under (.input slot)) := by
  rw [bodyIn_eq]
  cases b.input? slot with
  | none => rfl
  | some first => exact List.map_map

/-- What is said of a chain is said of its first block, if that is enabled, and then of the
    chain behind it in its place. -/
theorem map_chain :
    (r.listBlock b).chain.map f =
      (if b.enabled then (r.listBlock b).emission.map f else []) ++
        b.next.elim [] fun follower =>
          (r.listBlock follower).chain.map fun p => f (p.under .next) := by
  rw [listBlock_chain]
  unfold listChain
  rw [List.map_append]
  congr 1
  · split <;> rfl
  · cases b.next with
    | none => rfl
    | some follower => exact List.map_map

theorem map_listTop :
    (r.listTop (r.listBlock b)).map f =
      (r.get? b.type).elim [] fun spec =>
        if spec.isValueBlock then (if b.enabled then (r.listBlock b).emission.map f else [])
        else (r.listBlock b).chain.map f := by
  unfold listTop
  rw [listBlock_block]
  cases r.get? b.type with
  | none => rfl
  | some spec =>
    dsimp only [Option.elim_some]
    split
    · split <;> rfl
    · rfl

end Said

/-! ## Getting to a block -/

end Registry

/-- What a pass does with a block that it gets to. -/
inductive Role where
  | alone
  | chain
deriving DecidableEq, Repr

/-- From a block in its role, a pass gets to a block that it emits, along the
    connections of a path. Only an enabled block is emitted, and only through an
    enabled one are its inputs reached. What follows in a chain is reached either
    way. -/
inductive Registry.GetsTo (r : Registry) : Role → Block → List Edge → Block → Prop where
  | here {role : Role} {b : Block} (enabled : b.enabled = true) : GetsTo r role b [] b
  | value {role : Role} {b child c : Block} {spec : BlockSpec} {slot : String}
      {check : Option (List String)} {path : List Edge} (enabled : b.enabled = true)
      (type : r.get? b.type = some spec) (socket : ⟨slot, .value check⟩ ∈ spec.addressableSlots)
      (plugged : b.input? slot = some child) (below : GetsTo r .alone child path c) :
      GetsTo r role b (.input slot :: path) c
  /-- A body leads to the chain in it. -/
  | body {role : Role} {b first c : Block} {spec : BlockSpec} {slot : String}
      {path : List Edge} (enabled : b.enabled = true) (type : r.get? b.type = some spec)
      (socket : ⟨slot, .body⟩ ∈ spec.addressableSlots) (plugged : b.input? slot = some first)
      (below : GetsTo r .chain first path c) : GetsTo r role b (.input slot :: path) c
  /-- In a chain, the block that follows is reached even from a disabled one. -/
  | next {b follower c : Block} {path : List Edge} (follows : b.next = some follower)
      (behind : GetsTo r .chain follower path c) : GetsTo r .chain b (.next :: path) c

namespace Registry

variable {r : Registry} {b c : Block} {path : List Edge}

/-- Below a slot of a block, a pass gets to a block. -/
def GetsBelow (r : Registry) (b : Block) (slot : Slot) (path : List Edge) (c : Block) : Prop :=
  ∃ child rest, b.input? slot.name = some child ∧ path = .input slot.name :: rest ∧
    ((∃ check, slot.kind = .value check ∧ r.GetsTo .alone child rest c) ∨
      (slot.kind = .body ∧ r.GetsTo .chain child rest c))

/-- A pass emits an enabled block and what it gets to below the slots of the
    block. -/
theorem getsTo_alone_iff (enabled : b.enabled = true) :
    r.GetsTo .alone b path c ↔
      (path = [] ∧ c = b) ∨ ∃ spec, r.get? b.type = some spec ∧
        ∃ slot ∈ spec.addressableSlots, r.GetsBelow b slot path c := by
  constructor
  · intro h
    cases h with
    | here => exact .inl ⟨rfl, rfl⟩
    | value _ type socket plugged below =>
      exact .inr ⟨_, type, _, socket, _, _, plugged, rfl, .inl ⟨_, rfl, below⟩⟩
    | body _ type socket plugged below =>
      exact .inr ⟨_, type, _, socket, _, _, plugged, rfl, .inr ⟨rfl, below⟩⟩
  · rintro (⟨rfl, rfl⟩ | ⟨spec, type, ⟨name, kind⟩, socket, child, rest, plugged, rfl, below⟩)
    · exact .here enabled
    · rcases below with ⟨check, rfl, below⟩ | ⟨rfl, below⟩
      · exact .value enabled type socket plugged below
      · exact .body enabled type socket plugged below

/-- Nothing is emitted for a disabled block alone. -/
theorem not_getsTo_alone (disabled : b.enabled = false) : ¬ r.GetsTo .alone b path c := by
  intro h
  cases h <;> simp_all

/-- In a chain, a pass emits the first block unless that is disabled, and goes on
    behind it. -/
theorem getsTo_chain_iff :
    r.GetsTo .chain b path c ↔
      (b.enabled = true ∧ r.GetsTo .alone b path c) ∨
        ∃ follower rest, b.next = some follower ∧ path = .next :: rest ∧
          r.GetsTo .chain follower rest c := by
  constructor
  · intro h
    cases h with
    | here enabled => exact .inl ⟨enabled, .here enabled⟩
    | value enabled type socket plugged below =>
      exact .inl ⟨enabled, .value enabled type socket plugged below⟩
    | body enabled type socket plugged below =>
      exact .inl ⟨enabled, .body enabled type socket plugged below⟩
    | next follows behind => exact .inr ⟨_, _, follows, rfl, behind⟩
  · rintro (⟨enabled, h⟩ | ⟨follower, rest, follows, rfl, behind⟩)
    · cases h with
      | here enabled => exact .here enabled
      | value enabled type socket plugged below =>
        exact .value enabled type socket plugged below
      | body enabled type socket plugged below =>
        exact .body enabled type socket plugged below
    · exact .next follows behind

/-- The listed blocks of a block are those that a pass gets to. -/
def ListsAll (r : Registry) (b : Block) : Prop :=
  (b.enabled = true → ∀ p, p ∈ (r.listBlock b).emission ↔ r.GetsTo .alone b p.path p.block) ∧
    ∀ p, p ∈ (r.listBlock b).chain ↔ r.GetsTo .chain b p.path p.block

theorem mem_map_under {edge : Edge} {ps : List Placed} {p : Placed} :
    p ∈ ps.map (Placed.under edge) ↔ ∃ rest, p.path = edge :: rest ∧ ⟨rest, p.block⟩ ∈ ps := by
  rw [List.mem_map]
  constructor
  · rintro ⟨q, hq, rfl⟩
    exact ⟨q.path, rfl, hq⟩
  · rintro ⟨rest, hpath, hrest⟩
    exact ⟨_, hrest, by rw [Placed.under, ← hpath]⟩

/-- What is listed in a slot is what a pass gets to below it. -/
theorem mem_inSlot_iff (slot : Slot) (p : Placed)
    (inputs : ∀ name child, b.input? name = some child → r.ListsAll child) :
    p ∈ Listed.inSlot (Dictionary.mapValues r.listBlock b.inputs) slot ↔
      r.GetsBelow b slot p.path p.block := by
  obtain ⟨name, kind⟩ := slot
  unfold Listed.inSlot GetsBelow
  cases kind with
  | value check =>
    simp only [valueIn_eq]
    cases hinput : b.input? name with
    | none => simp
    | some child =>
      cases henabled : child.enabled with
      | false => simp [not_getsTo_alone henabled, henabled]
      | true =>
        have hlists := (inputs name child hinput).1 henabled
        simp [mem_map_under, hlists, henabled]
  | body =>
    simp only [bodyIn_eq]
    cases hinput : b.input? name with
    | none => simp
    | some first =>
      have hlists := (inputs name first hinput).2
      simp [mem_map_under, hlists]
  | rowBreak => simp
  | dropdown options => simp
  | text default => simp
  | number default least greatest => simp

theorem listsAll (r : Registry) (b : Block) : r.ListsAll b := by
  induction b using Block.tree_induction with
  | step b inputs next =>
    have emission : b.enabled = true →
        ∀ p, p ∈ (r.listBlock b).emission ↔ r.GetsTo .alone b p.path p.block := by
      intro enabled p
      rw [listBlock_emission, listEmission, getsTo_alone_iff enabled, List.mem_cons]
      have hself : p = ⟨[], b⟩ ↔ p.path = [] ∧ p.block = b := by
        obtain ⟨path, block⟩ := p
        simp
      rw [hself]
      refine or_congr_right ?_
      cases r.get? b.type with
      | none => simp
      | some spec => simp [mem_inSlot_iff _ _ inputs]
    refine ⟨emission, fun p => ?_⟩
    rw [listBlock_chain, getsTo_chain_iff]
    unfold listChain
    rw [List.mem_append]
    refine or_congr ?_ ?_
    · cases henabled : b.enabled with
      | false => simp
      | true => simp [emission henabled]
    · cases hnext : b.next with
      | none => simp
      | some follower => simp [mem_map_under, (next follower hnext).2]

/-! ## Places -/

/-- No two slots that blocks can refer to share a name, whatever the registered
    type. -/
def Addressed (r : Registry) : Prop :=
  ∀ type spec, r.get? type = some spec → (spec.addressableSlots.map (·.name)).Nodup

theorem nodup_map_under {edge : Edge} {ps : List Placed} (h : (ps.map (·.path)).Nodup) :
    ((ps.map (Placed.under edge)).map (·.path)).Nodup := by
  have hcons : (ps.map (Placed.under edge)).map (·.path) =
      (ps.map (·.path)).map (edge :: ·) := by
    simp [Placed.under, Function.comp_def]
  rw [hcons]
  exact List.Pairwise.map _ (fun _ _ hne heq => hne (List.cons.inj heq).2) h

/-- What is listed in a slot is listed behind the connection to the slot. -/
theorem path_of_mem_inSlot {inputs : List (String × Listed)} {slot : Slot} {p : Placed}
    (h : p ∈ Listed.inSlot inputs slot) : ∃ rest, p.path = .input slot.name :: rest := by
  unfold Listed.inSlot Listed.valueIn Listed.bodyIn at h
  split at h
  · split at h
    · split at h
      · obtain ⟨rest, hpath, -⟩ := mem_map_under.mp h
        exact ⟨rest, hpath⟩
      · cases h
    · cases h
  · split at h
    · obtain ⟨rest, hpath, -⟩ := mem_map_under.mp h
      exact ⟨rest, hpath⟩
    · cases h
  · cases h

/-- Slots with different names list different places. -/
theorem nodup_inSlots {inputs : List (String × Listed)} {slots : List Slot}
    (names : (slots.map (·.name)).Nodup)
    (each : ∀ slot ∈ slots, ((Listed.inSlot inputs slot).map (·.path)).Nodup) :
    ((slots.flatMap (Listed.inSlot inputs)).map (·.path)).Nodup := by
  induction slots with
  | nil => simp
  | cons slot rest ih =>
    rw [List.map_cons, List.nodup_cons] at names
    rw [List.flatMap_cons, List.map_append, List.nodup_append]
    refine ⟨each slot List.mem_cons_self,
      ih names.2 fun other hother => each other (List.mem_cons_of_mem _ hother), ?_⟩
    intro a ha b hb heq
    subst heq
    obtain ⟨p, hp, rfl⟩ := List.mem_map.mp ha
    obtain ⟨q, hq, hpath⟩ := List.mem_map.mp hb
    obtain ⟨other, hother, hq⟩ := List.mem_flatMap.mp hq
    obtain ⟨front, hfront⟩ := path_of_mem_inSlot hp
    obtain ⟨back, hback⟩ := path_of_mem_inSlot hq
    rw [hfront, hback] at hpath
    have hname : other.name = slot.name := by simpa using (List.cons.inj hpath).1
    exact names.1 (List.mem_map.mpr ⟨other, hother, hname⟩)

/-- A slot lists different places if the block in it does. -/
theorem nodup_inSlot {b : Block}
    (inputs : ∀ name child, b.input? name = some child →
      ((r.listBlock child).emission.map (·.path)).Nodup ∧
        ((r.listBlock child).chain.map (·.path)).Nodup) (slot : Slot) :
    ((Listed.inSlot (Dictionary.mapValues r.listBlock b.inputs) slot).map (·.path)).Nodup := by
  obtain ⟨name, kind⟩ := slot
  unfold Listed.inSlot
  cases kind with
  | value check =>
    simp only [valueIn_eq]
    cases hinput : b.input? name with
    | none => simp
    | some child =>
      dsimp only
      split
      · exact nodup_map_under (inputs name child hinput).1
      · simp
  | body =>
    simp only [bodyIn_eq]
    cases hinput : b.input? name with
    | none => simp
    | some first => exact nodup_map_under (inputs name first hinput).2
  | _ => simp

/-- What is listed for a block alone is the block itself, or behind a connection to one of its
    slots. -/
theorem path_of_mem_emission {b : Block} {p : Placed} (h : p ∈ (r.listBlock b).emission) :
    p.path = [] ∨ ∃ slot rest, p.path = .input slot :: rest := by
  rw [listBlock_emission, listEmission] at h
  rcases List.mem_cons.mp h with rfl | h
  · exact .inl rfl
  · split at h
    · obtain ⟨slot, -, h⟩ := List.mem_flatMap.mp h
      obtain ⟨rest, hpath⟩ := path_of_mem_inSlot h
      exact .inr ⟨slot.name, rest, hpath⟩
    · cases h

theorem nodup_emission (addressed : r.Addressed) {b : Block}
    (slots : ∀ slot : Slot,
      ((Listed.inSlot (Dictionary.mapValues r.listBlock b.inputs) slot).map (·.path)).Nodup) :
    ((r.listBlock b).emission.map (·.path)).Nodup := by
  rw [listBlock_emission, listEmission, List.map_cons, List.nodup_cons]
  cases htype : r.get? b.type with
  | none => simp
  | some spec =>
    refine ⟨fun hmem => ?_, nodup_inSlots (addressed _ _ htype) fun slot _ => slots slot⟩
    obtain ⟨p, hp, hpath⟩ := List.mem_map.mp hmem
    obtain ⟨slot, -, hp⟩ := List.mem_flatMap.mp hp
    obtain ⟨rest, hrest⟩ := path_of_mem_inSlot hp
    rw [hrest] at hpath
    cases hpath

/-- A block lists different places, alone and with its chain. -/
theorem nodup_listed (addressed : r.Addressed) (b : Block) :
    ((r.listBlock b).emission.map (·.path)).Nodup ∧
      ((r.listBlock b).chain.map (·.path)).Nodup := by
  induction b using Block.tree_induction with
  | step b inputs next =>
    have emission := nodup_emission addressed (nodup_inSlot inputs)
    refine ⟨emission, ?_⟩
    rw [listBlock_chain]
    unfold listChain
    rw [List.map_append, List.nodup_append]
    refine ⟨by split <;> simp [emission], ?_, ?_⟩
    · cases hnext : b.next with
      | none => simp
      | some follower => exact nodup_map_under (next follower hnext).2
    · -- no path to a block in an input begins with the connection to what follows
      intro a ha c hc heq
      subst heq
      obtain ⟨p, hp, rfl⟩ := List.mem_map.mp ha
      obtain ⟨q, hq, hpath⟩ := List.mem_map.mp hc
      have hback : ∃ rest, q.path = .next :: rest := by
        split at hq
        · obtain ⟨rest, hrest, -⟩ := mem_map_under.mp hq
          exact ⟨rest, hrest⟩
        · cases hq
      obtain ⟨rest, hrest⟩ := hback
      split at hp
      · rcases path_of_mem_emission hp with hown | ⟨slot, front, hfront⟩
        · rw [hown, hrest] at hpath
          cases hpath
        · rw [hfront, hrest] at hpath
          cases hpath
      · cases hp

/-! ## Workspaces -/

/-- In a workspace, a pass gets to a block below the top-level block of a number.
    A value is taken alone, and every other block with its chain. -/
def GetsIn (r : Registry) (w : Workspace) (number : Nat) (path : List Edge) (c : Block) : Prop :=
  ∃ top spec, w.blocks[number]? = some top ∧ r.get? top.type = some spec ∧
    r.GetsTo (if spec.isValueBlock then .alone else .chain) top path c

/-- A block is listed if and only if a pass gets to it. -/
theorem mem_live_iff (r : Registry) (w : Workspace) (number : Nat) (p : Placed) :
    (number, p) ∈ r.live w ↔ r.GetsIn w number p.path p.block := by
  have htop : ∀ top, p ∈ r.listTop (r.listBlock top) ↔ ∃ spec, r.get? top.type = some spec ∧
      r.GetsTo (if spec.isValueBlock then .alone else .chain) top p.path p.block := by
    intro top
    unfold listTop
    rw [listBlock_block]
    cases r.get? top.type with
    | none => simp
    | some spec =>
      cases hvalue : spec.isValueBlock with
      | false => simp [(r.listsAll top).2, hvalue]
      | true =>
        cases henabled : top.enabled with
        | true => simp [(r.listsAll top).1 henabled, hvalue]
        | false => simp [hvalue, not_getsTo_alone henabled]
  unfold live GetsIn
  simp only [List.mem_flatMap, List.mem_map, Prod.exists, Prod.mk.injEq]
  constructor
  · rintro ⟨top, n, hmem, q, hq, rfl, rfl⟩
    obtain ⟨spec, htype, hgets⟩ := (htop top).mp hq
    exact ⟨top, spec, List.mem_zipIdx_iff_getElem?.mp hmem, htype, hgets⟩
  · rintro ⟨top, spec, hmem, htype, hgets⟩
    exact ⟨top, number, List.mem_zipIdx_iff_getElem?.mpr hmem, p,
      (htop top).mpr ⟨spec, htype, hgets⟩, rfl, rfl⟩

/-- No place is listed twice. -/
theorem nodup_live (addressed : r.Addressed) (w : Workspace) :
    ((r.live w).map fun entry => (entry.1, entry.2.path)).Nodup := by
  have hlist : ∀ (tops : List Block) (n : Nat),
      (((tops.zipIdx n).flatMap fun top => (r.listTop (r.listBlock top.1)).map
        fun p => (top.2, p)).map fun entry => (entry.1, entry.2.path)).Nodup := by
    intro tops
    induction tops with
    | nil => simp
    | cons top rest ih =>
      intro n
      rw [List.zipIdx_cons, List.flatMap_cons, List.map_append, List.nodup_append]
      refine ⟨?_, ih (n + 1), ?_⟩
      · have htop : ((r.listTop (r.listBlock top)).map (·.path)).Nodup := by
          unfold listTop
          split
          · split
            · split
              · exact (nodup_listed addressed top).1
              · simp
            · exact (nodup_listed addressed top).2
          · simp
        rw [List.map_map]
        have hpair :
            (((r.listTop (r.listBlock top)).map (·.path)).map fun path => (n, path)).Nodup :=
          List.Pairwise.map _ (fun _ _ hne heq => hne (Prod.mk.inj heq).2) htop
        rwa [List.map_map] at hpair
      · intro a ha b hb heq
        subst heq
        simp only [List.map_map, List.mem_map, Function.comp_apply] at ha
        obtain ⟨p, -, rfl⟩ := ha
        simp only [List.mem_map, List.mem_flatMap, Prod.exists, Prod.mk.injEq] at hb
        obtain ⟨m, q, ⟨other, k, hmem, s, -, rfl, rfl⟩, hm, -⟩ := hb
        -- the top-level blocks that follow have higher numbers
        have hle := List.le_snd_of_mem_zipIdx hmem
        omega
  exact hlist w.blocks 0

end Registry

end PollScript
