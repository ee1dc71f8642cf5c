import Mathlib.Data.List.Perm.Basic
import PollScript.Proofs.Conversion

/-!
# Conversions in any order

The fields of a block and its inputs are maps, whose entries have no order of their own.
A conversion goes through the fields of each block in an order that nothing fixes. Inputs
are taken in ascending order of their names.

A document that converts does so in every order, and to the same workspace. One that does
not convert fails in every order, and each time at the first visible block that is not
readable. Only which field of that block is named is left to the order.

Results:

* `Document.toWorkspaceTaking_ascending`: to take the fields by ascending name is one of
  the orders.
* `Block.Reorders.convert_eq`: how the entries are listed does not matter to it.
* `Block.agrees`: any other order agrees with it where it ends well, and fails at the first
  unreadable block.
* `FirstUnreadable.unique`: in blocks that have one unreadable field at most, the first one
  is told.
* `Document.toWorkspaceTaking_reordered`: the outcome is the same in all orders.
-/

namespace PollScript

namespace Saved

/-! ## Orders -/

/-- An order in which the fields of a block are taken. Where each name stands once, each
    field is taken once. -/
structure Traversal where
  take : List (String × Json.Value) → List (String × Json.Value)
  perm : ∀ {fields : List (String × Json.Value)}, (Dictionary.keys fields).Nodup →
    (take fields).Perm fields

/-- The fields by ascending name. -/
def Traversal.ascending : Traversal :=
  ⟨Dictionary.sorted, Dictionary.perm_sorted⟩

/-- The fields as they are listed. -/
def Traversal.asListed : Traversal :=
  ⟨id, fun _ => .refl _⟩

namespace Block

variable (order : Traversal) (scope : List Variable)

/-- The id and the fields of a converted block, of which the fields are converted as they
    are taken. -/
def headTaking (b : Block) : Conversion (String × List (String × FieldValue)) := do
  let id ← chooseId b.type b.id
  let fields ← ((order.take b.fields).mapM (convertField scope id) :
    Except Unreadable (List (String × FieldValue)))
  return (id, Dictionary.sorted fields)

/-- Converts a block and all that is visible below it. -/
def convertTaking : Block → Conversion PollScript.Block :=
  fold fun b inputs next => do
    let head ← b.headTaking order scope
    let inputs ← convertAll inputs
    let next ← convertNext next
    return {
      id := head.1, type := b.type
      enabled := b.enabled.getD true && b.disabledReasons.isEmpty
      fields := head.2, inputs, next }

theorem convertTaking_eq (b : Block) :
    b.convertTaking order scope =
      b.headTaking order scope >>= fun head =>
        convertAll (Dictionary.mapValues (convertTaking order scope) b.occupants) >>= fun inputs =>
          convertNext (b.follower?.map (convertTaking order scope)) >>= fun next =>
            pure {
              id := head.1, type := b.type
              enabled := b.enabled.getD true && b.disabledReasons.isEmpty
              fields := head.2, inputs, next } := by
  rw [convertTaking, fold_eq]

end Block

namespace Document

variable (order : Traversal)

/-- Converts the top-level blocks, taking the fields of each block in the order. -/
def convertTaking (d : Document) : Conversion (List PollScript.Block) :=
  d.blocks.mapM (Block.convertTaking order d.scope)

/-- The workspace of a document whose fields are taken in the order. -/
def toWorkspaceTaking (d : Document) : Except WorkspaceError Workspace :=
  workspaceOf (d.convertTaking order)

end Document

/-! ## Conversions of fields -/

variable {scope : List Variable}

theorem mapM_eq_ok_iff {α β ε : Type} {f : α → Except ε β} {items : List α}
    {results : List β} :
    items.mapM f = .ok results ↔ List.Forall₂ (fun a b => f a = .ok b) items results := by
  induction items generalizing results with
  | nil =>
    rw [List.mapM_nil, List.forall₂_nil_left_iff]
    exact ⟨fun h => by cases h; rfl, fun h => h ▸ rfl⟩
  | cons item items ih =>
    rw [List.mapM_cons]
    constructor
    · intro h
      obtain ⟨result, hresult, h⟩ := bind_eq_ok.mp h
      obtain ⟨others, hothers, h⟩ := bind_eq_ok.mp h
      cases h
      exact .cons hresult (ih.mp hothers)
    · intro h
      cases h with
      | cons hresult hothers => rw [hresult, ih.mpr hothers]; rfl

theorem convertField_fst {id : String} {entry : String × Json.Value}
    {field : String × FieldValue} (h : convertField scope id entry = .ok field) :
    field.1 = entry.1 := by
  unfold convertField at h
  split at h
  · cases h; rfl
  · cases h

theorem keys_of_mapM_eq_ok {id : String} {stored : List (String × Json.Value)}
    {fields : List (String × FieldValue)}
    (h : stored.mapM (convertField scope id) = .ok fields) :
    Dictionary.keys fields = Dictionary.keys stored := by
  have hkeys := (mapM_eq_ok_iff.mp h).imp fun _ _ hfield => (convertField_fst hfield).symm
  rw [Dictionary.keys, Dictionary.keys, ← List.forall₂_eq_eq_eq,
    List.forall₂_map_left_iff, List.forall₂_map_right_iff]
  exact hkeys.flip.imp fun _ _ hfield => hfield.symm

/-- If fields convert in one order, they convert by ascending name, and to the same
    fields. -/
theorem mapM_sorted_of_perm {id : String} {stored taken : List (String × Json.Value)}
    {fields : List (String × FieldValue)} (nodup : (Dictionary.keys stored).Nodup)
    (perm : taken.Perm stored) (h : taken.mapM (convertField scope id) = .ok fields) :
    (Dictionary.sorted stored).mapM (convertField scope id) = .ok (Dictionary.sorted fields) := by
  have hperm := (Dictionary.perm_sorted nodup).trans perm.symm
  obtain ⟨arranged, harranged, hfields⟩ := List.perm_comp_forall₂ hperm (mapM_eq_ok_iff.mp h)
  have hmapM := mapM_eq_ok_iff.mpr harranged
  have hascending : Dictionary.Ascending arranged :=
    (Dictionary.ascending_sorted stored).of_keys_eq (keys_of_mapM_eq_ok hmapM)
  rw [Dictionary.sorted_of_perm hascending hfields.symm]
  exact hmapM

/-! ## Computations that read blocks in another order -/

/-- The second computation reads the blocks that the first one reads. If it ends well, so
    does the first one, in the same way. Otherwise it reports the first block that is not
    readable. -/
structure Agrees (scope : List Variable) {α : Type} (blocks : List Block)
    (x y : Conversion α) : Prop where
  ok : ∀ count ended, y.run count = .ok ended → x.run count = .ok ended
  error : ∀ count u, y.run count = .error u → FirstUnreadable scope (named count blocks) u

namespace Agrees

variable {α β : Type} {blocks others : List Block}

protected theorem pure (a : α) : Agrees scope [] (pure a) (pure a) where
  ok := fun _ _ h => h
  error := fun _ _ h => by cases h

/-- What comes second is reached if all is readable that comes first, and numbers the
    blocks on from there. -/
theorem bind {post : List String → α → Prop} {x y : Conversion α} {f g : α → Conversion β}
    (hx : Converts scope blocks post x) (hxy : Agrees scope blocks x y)
    (hfg : ∀ a, Agrees scope others (f a) (g a)) :
    Agrees scope (blocks ++ others) (x >>= f) (y >>= g) where
  ok := by
    intro count ended h
    rw [StateT.run_bind] at h ⊢
    obtain ⟨⟨a, middle⟩, ha, hb⟩ := bind_eq_ok.mp h
    exact bind_eq_ok.mpr ⟨_, hxy.ok _ _ ha, (hfg a).ok _ _ hb⟩
  error := by
    intro count u h
    rw [StateT.run_bind] at h
    rw [named_append]
    cases ha : y.run count with
    | error e =>
      rw [ha] at h
      cases h
      exact (hxy.error count u ha).append_left
    | ok ended =>
      obtain ⟨a, middle⟩ := ended
      rw [ha] at h
      obtain ⟨rfl, hblocks, -⟩ := hx.ok count a middle (hxy.ok _ _ ha)
      refine ((hfg a).error _ u h).append_right fun entry hentry => ?_
      exact hblocks _ (mem_of_mem_named hentry)

theorem map {x y : Conversion α} (h : Agrees scope blocks x y) (f : α → β) :
    Agrees scope blocks (f <$> x) (f <$> y) where
  ok := by
    intro count ended hended
    rw [StateT.run_map] at hended ⊢
    cases hy : y.run count with
    | error e => rw [hy] at hended; cases hended
    | ok middle => rw [hy] at hended; rw [h.ok _ _ hy]; exact hended
  error := by
    intro count u hu
    rw [StateT.run_map] at hu
    cases hy : y.run count with
    | error e => rw [hy] at hu; cases hu; exact h.error _ _ hy
    | ok middle => rw [hy] at hu; cases hu

end Agrees

/-! ## Blocks in any order -/

variable (order : Traversal)

/-- A block gets the same id in every order, and then its fields are converted by ascending
    name or as they are taken. -/
theorem Block.heads_run (scope : List Variable) (b : Block) (count : Nat) :
    ∃ id, named count [b] = [(id, b)] ∧
      (b.convertHead scope).run count =
        ((Dictionary.sorted b.fields).mapM (convertField scope id)).map
          (fun fields => ((id, fields), count + anonymous [b])) ∧
      (b.headTaking order scope).run count =
        ((order.take b.fields).mapM (convertField scope id)).map
          fun fields => ((id, Dictionary.sorted fields), count + anonymous [b]) := by
  obtain ⟨id, hnamed, -, hrun⟩ := b.convertHead_run scope count
  obtain ⟨id', hnamed', -, hchosen⟩ := chooseId_run b count
  obtain rfl : id' = id := by
    rw [hnamed'] at hnamed
    cases hnamed; rfl
  refine ⟨id', hnamed, hrun, ?_⟩
  rw [headTaking, StateT.run_bind, hchosen]
  show (liftM ((order.take b.fields).mapM (convertField scope id')) >>= fun fields =>
    pure (id', Dictionary.sorted fields) : Conversion _).run (count + anonymous [b]) = _
  cases (order.take b.fields).mapM (convertField scope id') <;> rfl

theorem Block.agrees_head {b : Block} (distinct : (Dictionary.keys b.fields).Nodup) :
    Agrees scope [b] (b.convertHead scope) (b.headTaking order scope) where
  ok := by
    intro count ended h
    obtain ⟨id, -, hrun, htaking⟩ := b.heads_run order scope count
    rw [htaking] at h
    rw [hrun]
    cases hmapM : (order.take b.fields).mapM (convertField scope id) with
    | error e => rw [hmapM] at h; cases h
    | ok fields =>
      rw [hmapM] at h
      rw [mapM_sorted_of_perm distinct (order.perm distinct) hmapM]
      exact h
  error := by
    intro count u h
    obtain ⟨id, hnamed, -, htaking⟩ := b.heads_run order scope count
    rw [htaking] at h
    cases hmapM : (order.take b.fields).mapM (convertField scope id) with
    | ok fields => rw [hmapM] at h; cases h
    | error e =>
      rw [hmapM] at h
      cases h
      obtain ⟨rfl, hmem, hvalue⟩ := unreadable_of_mapM_eq_error hmapM
      have hstored : b.stored? u.field = some u.value := by
        rw [stored?, Dictionary.get?_reverse distinct]
        exact Dictionary.get?_of_nodup distinct ((order.perm distinct).mem_iff.mp hmem)
      refine ⟨[], b, [], hnamed, fun earlier hearlier => ?_, hstored, hvalue⟩
      cases hearlier

theorem agrees_all {entries : Dictionary Block}
    (h : ∀ slot child, (slot, child) ∈ entries →
      Agrees scope child.visible (child.convert scope) (child.convertTaking order scope)) :
    Agrees scope (entries.flatMap (·.2.visible))
      (convertAll (Dictionary.mapValues (Block.convert scope) entries))
      (convertAll (Dictionary.mapValues (Block.convertTaking order scope) entries)) := by
  induction entries with
  | nil => exact .pure []
  | cons entry rest ih =>
    obtain ⟨name, child⟩ := entry
    refine .bind child.converts (h name child List.mem_cons_self) fun c => ?_
    have hrest := ih fun slot other hother => h slot other (List.mem_cons_of_mem _ hother)
    rw [bind_pure_comp, bind_pure_comp]
    exact hrest.map _

theorem agrees_next {next : Option Block}
    (h : ∀ follower, next = some follower →
      Agrees scope follower.visible (follower.convert scope)
        (follower.convertTaking order scope)) :
    Agrees scope ((next.map Block.visible).getD [])
      (convertNext (next.map (Block.convert scope)))
      (convertNext (next.map (Block.convertTaking order scope))) := by
  cases next with
  | none => exact .pure none
  | some follower => exact (h follower rfl).map _

/-- In every order, a conversion that ends well ends as it does by ascending name, and one
    that fails does so at the first visible block that is not readable. -/
theorem Block.agrees {b : Block}
    (distinct : ∀ c ∈ b.visible, (Dictionary.keys c.fields).Nodup) :
    Agrees scope b.visible (b.convert scope) (b.convertTaking order scope) := by
  induction b using tree_induction with
  | step b inputs next =>
    rw [visible_eq] at distinct ⊢
    rw [convert_eq, convertTaking_eq]
    have hinputs : ∀ slot child, (slot, child) ∈ b.occupants →
        Agrees scope child.visible (child.convert scope) (child.convertTaking order scope) := by
      intro slot child hchild
      refine inputs slot child hchild fun c hc => distinct c ?_
      exact List.mem_cons_of_mem _ (List.mem_append_left _ (List.mem_flatMap.mpr ⟨_, hchild, hc⟩))
    have hnext : ∀ follower, b.follower? = some follower →
        Agrees scope follower.visible (follower.convert scope)
          (follower.convertTaking order scope) := by
      intro follower hfollower
      refine next follower hfollower fun c hc => distinct c ?_
      refine List.mem_cons_of_mem _ (List.mem_append_right _ ?_)
      rwa [hfollower]
    refine .bind (converts_head b) (agrees_head order (distinct b List.mem_cons_self))
      fun head => ?_
    refine .bind (converts_all fun _ child _ => child.converts) (agrees_all order hinputs)
      fun below => ?_
    rw [bind_pure_comp, bind_pure_comp]
    exact (agrees_next order hnext).map _

/-! ## Documents in any order -/

theorem Document.agrees {d : Document}
    (distinct : ∀ b ∈ d.visible, (Dictionary.keys b.fields).Nodup) :
    Agrees d.scope d.visible d.convert (d.convertTaking order) := by
  unfold visible at distinct ⊢
  unfold convert convertTaking
  generalize d.blocks = blocks at distinct ⊢
  induction blocks with
  | nil => exact .pure []
  | cons b rest ih =>
    rw [List.flatMap_cons] at distinct ⊢
    rw [List.mapM_cons, List.mapM_cons]
    have hb : Agrees d.scope b.visible (b.convert d.scope) (b.convertTaking order d.scope) :=
      Block.agrees order fun c hc => distinct c (List.mem_append_left _ hc)
    have hrest := ih fun c hc => distinct c (List.mem_append_right _ hc)
    refine .bind b.converts hb fun c => ?_
    rw [bind_pure_comp, bind_pure_comp]
    exact hrest.map _

/-- In every order a document fails only at its first unreadable block. -/
theorem Document.firstUnreadable_of_taking {d : Document}
    (distinct : ∀ b ∈ d.visible, (Dictionary.keys b.fields).Nodup) {e : WorkspaceError}
    (h : d.toWorkspaceTaking order = .error e) :
    ∃ u, FirstUnreadable d.scope (named 0 d.visible) u ∧ e = .invalid u.describe := by
  obtain ⟨u, hrun, rfl⟩ := workspaceOf_eq_error.mp h
  exact ⟨u, (agrees order distinct).error _ _ hrun, rfl⟩

/-- In every order a document that converts becomes the same workspace. -/
theorem Document.taking_eq_ok_iff {d : Document}
    (distinct : ∀ b ∈ d.visible, (Dictionary.keys b.fields).Nodup) (w : Workspace) :
    d.toWorkspaceTaking order = .ok w ↔ d.toWorkspace = .ok w := by
  have only : ∀ w, d.toWorkspaceTaking order = .ok w → d.toWorkspace = .ok w := by
    intro w h
    obtain ⟨count, hrun⟩ := workspaceOf_eq_ok.mp h
    exact toWorkspace_eq_ok.mpr ⟨count, (agrees order distinct).ok _ _ hrun⟩
  refine ⟨only w, fun h => ?_⟩
  cases htaking : d.toWorkspaceTaking order with
  | ok w' =>
    have heq := only w' htaking
    rw [h] at heq
    exact heq.symm
  | error e =>
    -- an order that fails meets a visible block that is not readable
    obtain ⟨u, hfirst, -⟩ := firstUnreadable_of_taking order distinct htaking
    obtain ⟨b, hb, hnot⟩ := hfirst.exists_unreadable
    obtain ⟨count, hrun⟩ := toWorkspace_eq_ok.mp h
    exact absurd (((converts d).ok _ _ _ hrun).2.1 b.2 (mem_of_mem_named hb)) hnot

/-! ## The order by name -/

theorem Block.headTaking_ascending (b : Block) :
    b.headTaking .ascending scope = b.convertHead scope := by
  refine StateT.ext fun count => ?_
  obtain ⟨id, -, hrun, htaking⟩ := b.heads_run .ascending scope count
  rw [hrun, htaking]
  show ((Dictionary.sorted b.fields).mapM (convertField scope id)).map _ = _
  cases hmapM : (Dictionary.sorted b.fields).mapM (convertField scope id) with
  | error e => rfl
  | ok fields =>
    have hascending : Dictionary.Ascending fields :=
      (Dictionary.ascending_sorted b.fields).of_keys_eq (keys_of_mapM_eq_ok hmapM)
    simp only [Except.map, Dictionary.sorted_of_ascending hascending]

theorem Block.convertTaking_ascending (b : Block) :
    b.convertTaking .ascending scope = b.convert scope := by
  induction b using tree_induction with
  | step b inputs next =>
    have hinputs : Dictionary.mapValues (convertTaking .ascending scope) b.occupants =
        Dictionary.mapValues (convert scope) b.occupants :=
      List.map_congr_left fun entry hentry =>
        congrArg (entry.1, ·) (inputs entry.1 entry.2 hentry)
    have hnext : b.follower?.map (convertTaking .ascending scope) =
        b.follower?.map (convert scope) :=
      Option.map_congr fun follower hfollower => next follower hfollower
    rw [convertTaking_eq, convert_eq, headTaking_ascending, hinputs, hnext]

/-- The conversion takes the fields by ascending name. -/
theorem Document.toWorkspaceTaking_ascending (d : Document) :
    d.toWorkspaceTaking .ascending = d.toWorkspace := by
  have hblocks : Block.convertTaking .ascending d.scope = Block.convert d.scope :=
    funext Block.convertTaking_ascending
  show workspaceOf (d.blocks.mapM (Block.convertTaking .ascending d.scope)) =
    workspaceOf (d.blocks.mapM (Block.convert d.scope))
  rw [hblocks]

/-! ## Maps in any order -/

mutual

/-- The second block is the first one with the entries of its maps listed in any order, and
    so are all blocks in it. -/
inductive Block.Reorders : Block → Block → Prop
  /-- The fields are a permutation, and under each name stands the same input but for the
      order of the entries in it. -/
  | mk {b c : Block} (type : c.type = b.type) (id : c.id = b.id)
      (enabled : c.enabled = b.enabled) (reasons : c.disabledReasons = b.disabledReasons)
      (distinct : (Dictionary.keys b.fields).Nodup) (fields : c.fields.Perm b.fields)
      (inputNames : (Dictionary.keys b.inputs).Nodup)
      (inputNames' : (Dictionary.keys c.inputs).Nodup)
      (inputs : ∀ slot, Option.Rel Connection.Reorders
        (Dictionary.get? b.inputs slot) (Dictionary.get? c.inputs slot))
      (next : Option.Rel Connection.Reorders b.next c.next) :
      Block.Reorders b c

/-- The blocks of the connections are the same but for the order of the entries in them. -/
inductive Connection.Reorders : Connection Block → Connection Block → Prop
  | mk {k l : Connection Block} (block : Option.Rel Block.Reorders k.block l.block)
      (shadow : Option.Rel Block.Reorders k.shadow l.shadow) :
      Connection.Reorders k l

end

/-- The documents are the same but for the order of the entries in their blocks. -/
structure Document.Reorders (d d' : Document) : Prop where
  languageVersion : d'.languageVersion = d.languageVersion
  blocks : List.Forall₂ Block.Reorders d.blocks d'.blocks
  scope : d'.scope = d.scope

theorem Connection.Reorders.occupant? {k l : Connection Block} (h : k.Reorders l) :
    Option.Rel Block.Reorders k.occupant? l.occupant? := by
  obtain ⟨hblock, hshadow⟩ := h
  unfold Connection.occupant?
  generalize k.block = block, l.block = block' at hblock
  cases hblock with
  | none => exact hshadow
  | some h => exact .some h

namespace Block.Reorders

variable {b c : Block}

theorem sorted_fields (h : b.Reorders c) :
    Dictionary.sorted c.fields = Dictionary.sorted b.fields := by
  obtain ⟨_, _, _, _, distinct, fields⟩ := h
  exact Dictionary.sorted_of_perm (Dictionary.ascending_sorted _)
    (fields.trans (Dictionary.perm_sorted distinct).symm)

theorem stored?_eq (h : b.Reorders c) (field : String) : c.stored? field = b.stored? field := by
  rw [stored?, stored?, ← Dictionary.get?_sorted, h.sorted_fields, Dictionary.get?_sorted]

theorem readable_iff (h : b.Reorders c) : c.Readable scope ↔ b.Readable scope := by
  unfold Readable
  simp only [h.stored?_eq]

theorem occupants (h : b.Reorders c) :
    List.Forall₂ (fun x y => x.1 = y.1 ∧ x.2.Reorders y.2) b.occupants c.occupants := by
  refine Dictionary.forall₂_of_ascending (Dictionary.ascending_sorted _)
    (Dictionary.ascending_sorted _) fun slot => ?_
  obtain ⟨_, _, _, _, _, _, inputNames, inputNames', inputs, _⟩ := h
  have hslot := inputs slot
  show Option.Rel _ (b.occupant? slot) (c.occupant? slot)
  rw [occupant?_eq inputNames, occupant?_eq inputNames']
  generalize Dictionary.get? b.inputs slot = input, Dictionary.get? c.inputs slot = input'
    at hslot
  cases hslot with
  | none => exact .none
  | some h => exact h.occupant?

theorem follower? (h : b.Reorders c) : Option.Rel Block.Reorders b.follower? c.follower? := by
  obtain ⟨_, _, _, _, _, _, _, _, _, next⟩ := h
  unfold Block.follower?
  generalize b.next = behind, c.next = behind' at next
  cases next with
  | none => exact .none
  | some h =>
    obtain ⟨hblock, -⟩ := h
    exact hblock

/-- How the entries are listed does not matter to a conversion by ascending name, and what
    is visible differs in no more than that. -/
theorem convert_eq_and_visible (h : b.Reorders c) :
    c.convert scope = b.convert scope ∧
      List.Forall₂ Block.Reorders b.visible c.visible := by
  induction b using tree_induction generalizing c with
  | step b inputs next =>
    -- what is in the inputs of one is the reordered version of what is in the other
    have hinputs : List.Forall₂ (fun x y => x.1 = y.1 ∧ y.2.convert scope = x.2.convert scope ∧
        List.Forall₂ Block.Reorders x.2.visible y.2.visible) b.occupants c.occupants := by
      have ih : ∀ x ∈ b.occupants, ∀ c, x.2.Reorders c →
          c.convert scope = x.2.convert scope ∧
            List.Forall₂ Block.Reorders x.2.visible c.visible :=
        fun x hx c hc => inputs x.1 x.2 hx hc
      have hoccupants := (List.forall₂_and_left _ _).mpr ⟨ih, h.occupants⟩
      refine hoccupants.imp fun x y hxy => ?_
      obtain ⟨ih, hname, hblocks⟩ := hxy
      exact ⟨hname, ih y.2 hblocks⟩
    have hnext : c.follower?.map (convert scope) = b.follower?.map (convert scope) ∧
        List.Forall₂ Block.Reorders ((b.follower?.map visible).getD [])
          ((c.follower?.map visible).getD []) := by
      have hfollower := h.follower?
      generalize b.follower? = follower, c.follower? = follower' at hfollower next
      cases hfollower with
      | none => exact ⟨rfl, .nil⟩
      | some hxy =>
        obtain ⟨hconvert, hvisible⟩ := next _ rfl hxy
        exact ⟨congrArg some hconvert, hvisible⟩
    have hconverted : Dictionary.mapValues (convert scope) c.occupants =
        Dictionary.mapValues (convert scope) b.occupants := by
      rw [Dictionary.mapValues, Dictionary.mapValues, ← List.forall₂_eq_eq_eq,
        List.forall₂_map_left_iff, List.forall₂_map_right_iff]
      exact (hinputs.imp fun x y hxy => Prod.ext hxy.1.symm hxy.2.1).flip
    have hhead : c.convertHead scope = b.convertHead scope := by
      rw [convertHead, convertHead, h.sorted_fields]
      obtain ⟨type, id, _⟩ := h
      rw [type, id]
    constructor
    · rw [convert_eq, convert_eq, hhead, hconverted, hnext.1]
      obtain ⟨type, _, enabled, reasons, _⟩ := h
      rw [type, enabled, reasons]
    · rw [visible_eq, visible_eq]
      refine .cons h (List.rel_append ?_ hnext.2)
      exact List.rel_flatMap hinputs fun _ _ hxy => hxy.2.2

end Block.Reorders

/-! ## The first unreadable block -/

/-- At most one of the fields of the block has a stored value that is none. -/
def Block.OneUnreadable (scope : List Variable) (b : Block) : Prop :=
  ∀ field value field' value',
    b.stored? field = some value → (∀ f, ¬Denotes scope value f) →
    b.stored? field' = some value' → (∀ f, ¬Denotes scope value' f) → field = field'

theorem firstUnreadable_cons {id : String} {b : Block} {rest : List (String × Block)}
    {u : Unreadable} :
    FirstUnreadable scope ((id, b) :: rest) u ↔
      (u.block = id ∧ b.stored? u.field = some u.value ∧ ∀ f, ¬Denotes scope u.value f) ∨
        (b.Readable scope ∧ FirstUnreadable scope rest u) := by
  constructor
  · rintro ⟨before, c, after, hblocks, hbefore, hstored, hvalue⟩
    cases before with
    | nil =>
      cases hblocks
      exact .inl ⟨rfl, hstored, hvalue⟩
    | cons first before =>
      cases hblocks
      exact .inr ⟨hbefore _ List.mem_cons_self, before, c, after, rfl,
        fun earlier hearlier => hbefore _ (List.mem_cons_of_mem _ hearlier), hstored, hvalue⟩
  · rintro (⟨rfl, hstored, hvalue⟩ | ⟨hreadable, before, c, after, rfl, hbefore, hstored, hvalue⟩)
    · exact ⟨[], b, rest, rfl, fun _ hnil => absurd hnil List.not_mem_nil, hstored, hvalue⟩
    · refine ⟨(id, b) :: before, c, after, rfl, fun earlier hearlier => ?_, hstored, hvalue⟩
      rcases List.mem_cons.mp hearlier with rfl | hearlier
      · exact hreadable
      · exact hbefore _ hearlier

/-- Where no block has two unreadable fields, the first one is told. -/
theorem FirstUnreadable.unique {blocks : List (String × Block)} {u u' : Unreadable}
    (one : ∀ b ∈ blocks, b.2.OneUnreadable scope) (h : FirstUnreadable scope blocks u)
    (h' : FirstUnreadable scope blocks u') : u = u' := by
  induction blocks with
  | nil =>
    obtain ⟨before, b, after, hblocks, -⟩ := h
    cases before <;> cases hblocks
  | cons first rest ih =>
    obtain ⟨id, b⟩ := first
    rcases firstUnreadable_cons.mp h with ⟨hid, hstored, hvalue⟩ | ⟨hreadable, hrest⟩
    · rcases firstUnreadable_cons.mp h' with ⟨hid', hstored', hvalue'⟩ | ⟨hreadable, -⟩
      · have hfield := one _ List.mem_cons_self _ _ _ _ hstored hvalue hstored' hvalue'
        rw [hfield, hstored'] at hstored
        obtain ⟨block, field, value⟩ := u
        obtain ⟨block', field', value'⟩ := u'
        cases hstored
        cases hfield
        cases hid
        cases hid'
        rfl
      · obtain ⟨f, hf⟩ := hreadable _ _ hstored
        exact absurd hf (hvalue f)
    · rcases firstUnreadable_cons.mp h' with ⟨-, hstored', hvalue'⟩ | ⟨-, hrest'⟩
      · obtain ⟨f, hf⟩ := hreadable _ _ hstored'
        exact absurd hf (hvalue' f)
      · exact ih (fun c hc => one c (List.mem_cons_of_mem _ hc)) hrest hrest'

/-- Blocks that are reordered have the same reports about the first unreadable one. -/
theorem FirstUnreadable.of_reorders {blocks others : List Block} {count : Nat}
    {u : Unreadable} (hreorders : List.Forall₂ Block.Reorders blocks others)
    (h : FirstUnreadable scope (named count others) u) :
    FirstUnreadable scope (named count blocks) u := by
  induction hreorders generalizing count with
  | nil => exact h
  | @cons b c blocks others hbc hrest ih =>
    have hcons : ∀ name count, FirstUnreadable scope ((name, c) :: named count others) u →
        FirstUnreadable scope ((name, b) :: named count blocks) u := by
      intro name count hu
      rcases firstUnreadable_cons.mp hu with ⟨hname, hstored, hvalue⟩ | ⟨hreadable, hu⟩
      · rw [hbc.stored?_eq] at hstored
        exact firstUnreadable_cons.mpr (.inl ⟨hname, hstored, hvalue⟩)
      · exact firstUnreadable_cons.mpr (.inr ⟨hbc.readable_iff.mp hreadable, ih hu⟩)
    obtain ⟨htype, hid, _⟩ := hbc
    rw [named, hid, htype] at h
    rw [named]
    cases hb : b.id with
    | some name => rw [hb] at h; exact hcons _ _ h
    | none => rw [hb] at h; exact hcons _ _ h

/-! ## The outcome -/

theorem Document.Reorders.visible {d d' : Document} (h : d.Reorders d') :
    List.Forall₂ Block.Reorders d.visible d'.visible := by
  have hblocks := h.blocks
  unfold Document.visible
  generalize d.blocks = blocks, d'.blocks = others at hblocks
  induction hblocks with
  | nil => exact .nil
  | @cons b c _ _ hblock _ ih =>
    obtain ⟨-, hvisible⟩ : c.convert [] = b.convert [] ∧
        List.Forall₂ Block.Reorders b.visible c.visible := hblock.convert_eq_and_visible
    rw [List.flatMap_cons, List.flatMap_cons]
    exact List.rel_append hvisible ih

theorem distinct_of_reorders {blocks others : List Block}
    (h : List.Forall₂ Block.Reorders blocks others) :
    (∀ b ∈ blocks, (Dictionary.keys b.fields).Nodup) ∧
      ∀ c ∈ others, (Dictionary.keys c.fields).Nodup := by
  induction h with
  | nil => simp
  | cons hblock _ ih =>
    obtain ⟨_, _, _, _, distinct, fields⟩ := hblock
    have distinct' := (fields.map Prod.fst).nodup_iff.mpr distinct
    exact ⟨List.forall_mem_cons.mpr ⟨distinct, ih.1⟩, List.forall_mem_cons.mpr ⟨distinct', ih.2⟩⟩

theorem Document.Reorders.toWorkspace_eq {d d' : Document} (h : d.Reorders d') :
    d'.toWorkspace = d.toWorkspace := by
  have hconvert : d'.convert = d.convert := by
    have hblocks := h.blocks
    rw [convert, convert, h.scope]
    generalize d.blocks = blocks, d'.blocks = others at hblocks
    induction hblocks with
    | nil => rfl
    | cons hblock _ ih =>
      rw [List.mapM_cons, List.mapM_cons, hblock.convert_eq_and_visible.1, ih]
  rw [toWorkspace, toWorkspace, hconvert]

/-- The order in which the entries of maps are met is of no matter. In all orders a
    document converts to the same workspace or fails, and then at the same block, which is
    the first visible one that is not readable. Where no visible block has two unreadable
    fields, it also fails with the same error. To take the fields by ascending name is one
    of the orders. -/
theorem Document.toWorkspaceTaking_reordered (order order' : Traversal) {d d' : Document}
    (h : d.Reorders d') :
    (∀ w, d.toWorkspaceTaking order = .ok w ↔ d'.toWorkspaceTaking order' = .ok w) ∧
      (∀ e, d'.toWorkspaceTaking order' = .error e → ∃ u,
        FirstUnreadable d.scope (named 0 d.visible) u ∧ e = .invalid u.describe) ∧
      ((∀ b ∈ d.visible, b.OneUnreadable d.scope) →
        d'.toWorkspaceTaking order' = d.toWorkspaceTaking order) ∧
      d.toWorkspaceTaking .ascending = d.toWorkspace := by
  obtain ⟨hdistinct, hdistinct'⟩ := distinct_of_reorders h.visible
  have hsame : ∀ w, d.toWorkspaceTaking order = .ok w ↔ d'.toWorkspaceTaking order' = .ok w := by
    intro w
    rw [taking_eq_ok_iff order hdistinct, taking_eq_ok_iff order' hdistinct', h.toWorkspace_eq]
  have hfirst : ∀ e, d'.toWorkspaceTaking order' = .error e → ∃ u,
      FirstUnreadable d.scope (named 0 d.visible) u ∧ e = .invalid u.describe := by
    intro e he
    obtain ⟨u, hu, rfl⟩ := firstUnreadable_of_taking order' hdistinct' he
    rw [h.scope] at hu
    exact ⟨u, .of_reorders h.visible hu, rfl⟩
  refine ⟨hsame, hfirst, fun one => ?_, toWorkspaceTaking_ascending d⟩
  have one' : ∀ entry ∈ named 0 d.visible, entry.2.OneUnreadable d.scope :=
    fun entry hentry => one _ (mem_of_mem_named hentry)
  cases hd' : d'.toWorkspaceTaking order' with
  | ok w => exact ((hsame w).mpr hd').symm
  | error e' =>
    cases hd : d.toWorkspaceTaking order with
    | ok w =>
      rw [(hsame w).mp hd] at hd'
      cases hd'
    | error e =>
      obtain ⟨u, hu, rfl⟩ := firstUnreadable_of_taking order hdistinct hd
      obtain ⟨u', hu', rfl⟩ := hfirst e' hd'
      rw [hu.unique one' hu']

/-- A document with two fields and two inputs in a block. -/
def listed : Document :=
  ⟨0, [⟨"pair", none, none, [], [("NUM", .int 1), ("OP", .text "ADD")],
    [("A", ⟨some ⟨"left", none, none, [], [], [], none⟩, none⟩),
      ("B", ⟨none, some ⟨"right", none, none, [], [], [], none⟩⟩)], none⟩], []⟩

/-- The same document in which each map is listed the other way round. -/
def relisted : Document :=
  ⟨0, [⟨"pair", none, none, [], [("OP", .text "ADD"), ("NUM", .int 1)],
    [("B", ⟨none, some ⟨"right", none, none, [], [], [], none⟩⟩),
      ("A", ⟨some ⟨"left", none, none, [], [], [], none⟩, none⟩)], none⟩], []⟩

theorem reorders_leaf (type : String) :
    Block.Reorders ⟨type, none, none, [], [], [], none⟩ ⟨type, none, none, [], [], [], none⟩ :=
  .mk rfl rfl rfl rfl .nil .nil .nil .nil (fun _ => .none) .none

theorem listed_reorders : listed.Reorders relisted := by
  refine ⟨rfl, .cons ?_ .nil, rfl⟩
  refine .mk rfl rfl rfl rfl (by decide) (.swap _ _ _) (by decide) (by decide)
    (fun slot => ?_) .none
  have hswap : ("A" : String) ≠ "B" := by decide
  simp only [Dictionary.get?_cons, Dictionary.get?_nil]
  by_cases hleft : slot = "A"
  · subst hleft
    exact .some ⟨.some (reorders_leaf "left"), .none⟩
  · by_cases hright : slot = "B"
    · subst hright
      exact .some ⟨.none, .some (reorders_leaf "right")⟩
    · simp only [hleft, hright, if_false]
      exact .none

/-- As listed the other way round, the document becomes the workspace that it becomes by
    ascending name, and its blocks get the same numbers. -/
theorem Document.toWorkspaceTaking_relisted :
    listed.Reorders relisted ∧ relisted.toWorkspaceTaking .asListed =
      .ok ⟨[⟨"pair#1", "pair", true, [("NUM", .number (Float.ofInt 1)), ("OP", .text "ADD")],
        [("A", ⟨"left#2", "left", true, [], [], none⟩),
          ("B", ⟨"right#3", "right", true, [], [], none⟩)], none⟩]⟩ :=
  ⟨listed_reorders,
    ((toWorkspaceTaking_reordered .ascending .asListed listed_reorders).1 _).mp rfl⟩

/-- Which of two unreadable fields is named is left to the order. -/
example :
    Document.toWorkspaceTaking .asListed
        ⟨0, [⟨"a", none, none, [], [("G", .null), ("F", .null)], [], none⟩], []⟩ =
      .error (.invalid "field 'G' on block 'a#1' has unsupported value null") ∧
    Document.toWorkspaceTaking .ascending
        ⟨0, [⟨"a", none, none, [], [("G", .null), ("F", .null)], [], none⟩], []⟩ =
      .error (.invalid "field 'F' on block 'a#1' has unsupported value null") :=
  ⟨rfl, rfl⟩

end Saved

end PollScript
