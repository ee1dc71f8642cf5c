import PollScript.Proofs.Dictionaries
import PollScript.Workspace.Conversion

/-!
# Visible parts of a document

A saved block holds more than the editor shows. The shadow in an input is hidden as
soon as a block stands there, and a shadow behind a block is no block of the program.
What is left is a tree: below a block stand the occupants of its inputs, in ascending
order of the inputs' names, and the block that follows.

Blocks without an id are known by their type and a number. They are numbered in the order
in which the visible blocks are listed, a block before everything below it.

Results:

* `Block.tree_induction`: what passes from occupants and followers to a block holds of
  every block.
* `Block.fold_eq`: a fold over a block is made of the folds over what is below it.
* `Block.convert_eq`: so is the conversion of a block.
* `named_append`: blocks behind others are numbered on from them.
-/

namespace PollScript.Saved

/-! ## What is below a block -/

/-- The occupants of inputs by name. An input without one is left out. -/
def occupied (inputs : List (String × Connection Block)) : List (String × Block) :=
  inputs.filterMap fun input => input.2.occupant?.map (input.1, ·)

namespace Block

/-- The occupants of the inputs of a block, in ascending order of the names. -/
def occupants (b : Block) : Dictionary Block :=
  Dictionary.sorted (occupied b.inputs)

/-- The occupant of an input. -/
def occupant? (b : Block) (slot : String) : Option Block :=
  Dictionary.get? b.occupants slot

/-- The block that follows. A shadow does not. -/
def follower? (b : Block) : Option Block :=
  b.next.bind (·.block)

end Block

theorem occupied_cons (name : String) (c : Connection Block)
    (inputs : List (String × Connection Block)) :
    occupied ((name, c) :: inputs) =
      (c.occupant?.map (name, ·)).toList ++ occupied inputs := by
  unfold occupied
  cases h : c.occupant? <;> simp [h]

theorem get?_occupied {inputs : List (String × Connection Block)}
    (h : (Dictionary.keys inputs).Nodup) (slot : String) :
    Dictionary.get? (occupied inputs) slot =
      (Dictionary.get? inputs slot).bind Connection.occupant? := by
  induction inputs with
  | nil => rfl
  | cons input rest ih =>
    obtain ⟨name, connection⟩ := input
    obtain ⟨hname, hrest⟩ := List.nodup_cons.mp h
    rw [occupied_cons, Dictionary.get?_cons]
    by_cases hslot : slot = name
    · subst hslot
      cases hoccupant : connection.occupant? with
      | none => simp [ih hrest, Dictionary.get?_eq_none hname, hoccupant]
      | some child => simp [Dictionary.get?_cons, hoccupant]
    · cases hoccupant : connection.occupant? with
      | none => simp [ih hrest, hslot]
      | some child => simp [Dictionary.get?_cons, ih hrest, hslot]

namespace Block

/-- In inputs of different names, the occupant of an input is its block or else its
    shadow. -/
theorem occupant?_eq {b : Block} (h : (Dictionary.keys b.inputs).Nodup) (slot : String) :
    b.occupant? slot = (Dictionary.get? b.inputs slot).bind Connection.occupant? := by
  have hreverse : (Dictionary.keys b.inputs.reverse).Nodup := by
    rw [Dictionary.keys, List.map_reverse]
    exact List.nodup_reverse.mpr h
  have hoccupied : (occupied b.inputs).reverse = occupied b.inputs.reverse :=
    List.filterMap_reverse.symm
  rw [occupant?, occupants, Dictionary.get?_sorted, hoccupied, get?_occupied hreverse,
    Dictionary.get?_reverse h]

theorem exists_input_of_mem_occupants {b child : Block} {slot : String}
    (h : (slot, child) ∈ b.occupants) :
    ∃ c, (slot, c) ∈ b.inputs ∧ c.occupant? = some child := by
  have hlast := Dictionary.get?_of_nodup (Dictionary.ascending_sorted _).nodup h
  rw [Dictionary.get?_sorted] at hlast
  have hmem := List.mem_reverse.mp (Dictionary.mem_of_get? hlast)
  obtain ⟨⟨name, c⟩, hinput, heq⟩ := List.mem_filterMap.mp hmem
  obtain ⟨occupant, hoccupant, heq⟩ := Option.map_eq_some_iff.mp heq
  cases heq
  exact ⟨c, hinput, hoccupant⟩

/-- What passes from the occupants of the inputs and the block that follows to each block
    holds of every block. -/
theorem tree_induction {P : Block → Prop}
    (step : ∀ b : Block, (∀ slot child, (slot, child) ∈ b.occupants → P child) →
      (∀ follower, b.follower? = some follower → P follower) → P b) (b : Block) : P b := by
  refine @Block.rec P (fun inputs => ∀ input ∈ inputs, ∀ c, input.2.occupant? = some c → P c)
    (fun next => ∀ c, next.bind (·.block) = some c → P c)
    (fun input => ∀ c, input.2.occupant? = some c → P c)
    (fun connection => (∀ c, connection.block = some c → P c) ∧
      ∀ c, connection.occupant? = some c → P c)
    (fun placed => ∀ c, placed = some c → P c) ?_ ?_ ?_ ?_ ?_ ?_ ?_ ?_ ?_ b
  · intro type id enabled reasons fields inputs next hinputs hnext
    refine step _ (fun slot child hchild => ?_) hnext
    obtain ⟨connection, hmem, hoccupant⟩ := exists_input_of_mem_occupants hchild
    exact hinputs _ hmem child hoccupant
  · intro input hinput
    cases hinput
  · intro input rest hinput hrest other hother
    rcases List.mem_cons.mp hother with rfl | hother
    · exact hinput
    · exact hrest other hother
  · intro c hc
    cases hc
  · intro connection hconnection c hc
    exact hconnection.1 c hc
  · intro name connection hconnection
    exact hconnection.2
  · intro block shadow hblock hshadow
    refine ⟨hblock, fun c hc => ?_⟩
    cases block with
    | none => exact hshadow c hc
    | some b => exact hblock c hc
  · intro c hc
    cases hc
  · intro b hb c hc
    cases hc
    exact hb

/-! ## Folds -/

section Folds

variable {α : Type} (f : Block → Dictionary α → Option α → α)

mutual

/-- What comes of a block, given what comes of the occupants of its inputs and of the block
    that follows. -/
def fold : Block → α
  | ⟨type, id, enabled, reasons, fields, inputs, next⟩ =>
    f ⟨type, id, enabled, reasons, fields, inputs, next⟩
      (Dictionary.sorted (foldInputs inputs)) (foldFollower next)

/-- What comes of the occupants of inputs. -/
def foldInputs : List (String × Connection Block) → List (String × α)
  | [] => []
  | (name, ⟨some block, _⟩) :: rest => (name, fold block) :: foldInputs rest
  | (name, ⟨none, some shadow⟩) :: rest => (name, fold shadow) :: foldInputs rest
  | (_, ⟨none, none⟩) :: rest => foldInputs rest

/-- What comes of the block that follows, if there is one. -/
def foldFollower : Option (Connection Block) → Option α
  | some ⟨some block, _⟩ => some (fold block)
  | _ => none

end

theorem foldInputs_eq (inputs : List (String × Connection Block)) :
    foldInputs f inputs = Dictionary.mapValues (fold f) (occupied inputs) := by
  induction inputs with
  | nil => simp [foldInputs, occupied, Dictionary.mapValues]
  | cons input rest ih =>
    obtain ⟨name, block, shadow⟩ := input
    cases block <;> cases shadow <;>
      simp [foldInputs, ih, occupied_cons, Connection.occupant?, Dictionary.mapValues]

/-- A fold is applied to the folds over the occupants and the block that follows. -/
theorem fold_eq (b : Block) :
    fold f b =
      f b (Dictionary.mapValues (fold f) b.occupants) (b.follower?.map (fold f)) := by
  obtain ⟨type, id, enabled, reasons, fields, inputs, next⟩ := b
  rw [fold, foldInputs_eq, Dictionary.sorted_mapValues]
  rcases next with _ | ⟨_ | block, shadow⟩ <;> simp [foldFollower, occupants, follower?]

end Folds

/-! ## Visible blocks -/

/-- The block and the visible blocks below it: itself, then what is in its inputs by
    ascending name, then what follows. -/
def visible : Block → List Block :=
  fold fun b inputs next => b :: (inputs.flatMap (·.2) ++ next.getD [])

theorem visible_eq (b : Block) :
    b.visible =
      b :: (b.occupants.flatMap (·.2.visible) ++ (b.follower?.map visible).getD []) := by
  rw [visible, fold_eq, Dictionary.mapValues, List.flatMap_map]

/-- The block with nothing left that is not visible. Each input holds its occupant, and no
    shadow stands beside it or behind the block. -/
def pruned : Block → Block :=
  fold fun b inputs next =>
    { b with
      inputs := Dictionary.mapValues (fun occupant => ⟨some occupant, none⟩) inputs
      next := next.map fun follower => ⟨some follower, none⟩ }

theorem pruned_eq (b : Block) :
    b.pruned =
      { b with
        inputs := b.occupants.map fun entry => (entry.1, ⟨some entry.2.pruned, none⟩)
        next := b.follower?.map fun follower => ⟨some follower.pruned, none⟩ } := by
  rw [pruned, fold_eq]
  simp [Dictionary.mapValues, Function.comp_def]

theorem occupants_pruned (b : Block) :
    b.pruned.occupants = Dictionary.mapValues pruned b.occupants := by
  have hoccupied : occupied b.pruned.inputs = Dictionary.mapValues pruned b.occupants := by
    rw [pruned_eq]
    simp [occupied, Connection.occupant?, Dictionary.mapValues, List.filterMap_map]
  have hsorted : Dictionary.sorted b.occupants = b.occupants :=
    Dictionary.sorted_of_ascending (Dictionary.ascending_sorted _)
  rw [occupants, hoccupied, Dictionary.sorted_mapValues, hsorted]

theorem follower?_pruned (b : Block) : b.pruned.follower? = b.follower?.map pruned := by
  rw [pruned_eq, follower?]
  cases b.follower? <;> rfl

/-! ## The conversion of a block -/

/-- The id and the fields of a converted block. -/
def convertHead (scope : List Variable) (b : Block) :
    Conversion (String × List (String × FieldValue)) := do
  let id ← chooseId b.type b.id
  let fields ← ((Dictionary.sorted b.fields).mapM (convertField scope id) :
    Except Unreadable (List (String × FieldValue)))
  return (id, fields)

variable (scope : List Variable)

theorem convertInputs_eq (inputs : List (String × Connection Block)) :
    convertInputs scope inputs = Dictionary.mapValues (convert scope) (occupied inputs) := by
  induction inputs with
  | nil => simp [convertInputs, occupied, Dictionary.mapValues]
  | cons input rest ih =>
    obtain ⟨name, block, shadow⟩ := input
    cases block <;> cases shadow <;>
      simp [convertInputs, ih, occupied_cons, Connection.occupant?, Dictionary.mapValues]

/-- A block is converted itself, then the occupants of its inputs, then what follows. -/
theorem convert_eq (b : Block) :
    b.convert scope =
      b.convertHead scope >>= fun head =>
        convertAll (Dictionary.mapValues (convert scope) b.occupants) >>= fun inputs =>
          convertNext (b.follower?.map (convert scope)) >>= fun next =>
            pure {
              id := head.1, type := b.type
              enabled := b.enabled.getD true && b.disabledReasons.isEmpty
              fields := head.2, inputs, next } := by
  obtain ⟨type, id, enabled, reasons, fields, inputs, next⟩ := b
  have hnext : convertFollower scope next = (next.bind (·.block)).map (convert scope) := by
    rcases next with _ | ⟨_ | block, shadow⟩ <;> simp [convertFollower]
  rw [convert, convertInputs_eq, Dictionary.sorted_mapValues, hnext]
  simp [convertHead, occupants, follower?]

/-- What is not visible has no part in the conversion. -/
theorem convert_pruned (b : Block) : b.pruned.convert scope = b.convert scope := by
  induction b using tree_induction with
  | step b inputs next =>
    have hhead : b.pruned.convertHead scope = b.convertHead scope := by
      rw [pruned_eq]; rfl
    have hinputs : Dictionary.mapValues (convert scope) b.pruned.occupants =
        Dictionary.mapValues (convert scope) b.occupants := by
      rw [occupants_pruned]
      simp only [Dictionary.mapValues, List.map_map]
      exact List.map_congr_left fun entry hentry =>
        congrArg (entry.1, ·) (inputs entry.1 entry.2 hentry)
    have hnext : b.pruned.follower?.map (convert scope) =
        b.follower?.map (convert scope) := by
      rw [follower?_pruned, Option.map_map]
      exact Option.map_congr fun follower hfollower => next follower hfollower
    rw [convert_eq, convert_eq, hhead, hinputs, hnext, pruned_eq]

end Block

/-! ## Numbering -/

/-- The blocks with their ids, after `count` blocks without one. -/
def named (count : Nat) : List Block → List (String × Block)
  | [] => []
  | b :: rest =>
    match b.id with
    | some id => (id, b) :: named count rest
    | none => (b.type ++ "#" ++ toString (count + 1), b) :: named (count + 1) rest

theorem map_snd_named (count : Nat) (blocks : List Block) :
    (named count blocks).map (·.2) = blocks := by
  induction blocks generalizing count with
  | nil => rfl
  | cons b rest ih => cases h : b.id <;> simp [named, h, ih]

/-- How many of the blocks have no id. -/
def anonymous (blocks : List Block) : Nat :=
  blocks.countP (·.id.isNone)

theorem named_append (count : Nat) (blocks others : List Block) :
    named count (blocks ++ others) =
      named count blocks ++ named (count + anonymous blocks) others := by
  induction blocks generalizing count with
  | nil => rfl
  | cons b rest ih =>
    cases h : b.id with
    | some id => simp [named, anonymous, h, ih]
    | none =>
      have hcount : count + 1 + anonymous rest = count + anonymous (b :: rest) := by
        simp [anonymous, h]; omega
      simp [named, h, ih, hcount]

namespace Document

/-- The visible blocks of a document, in pre-order. -/
def visible (d : Document) : List Block :=
  d.blocks.flatMap Block.visible

/-- The document with nothing left that is not visible. -/
def pruned (d : Document) : Document :=
  { d with blocks := d.blocks.map Block.pruned }

end Document

end PollScript.Saved
