import PollScript.Proofs.BlockTree
import PollScript.Proofs.SavedTree

/-!
# What a conversion keeps

A document converts if every stored value of a visible block is the value of a field, and
the workspace then mirrors its visible part. Otherwise the error is about the first visible
block with a stored value that is none, and it names a field of that block with such a
value. The first block is told by the order in which the visible blocks are listed, and
its id is the given one or the one that its number makes.

A judgement on a computation says which blocks it reads, one after the other, and what it
makes of them. It is shown for the head of a block and put together along the tree.

Results:

* `fieldValue?_eq_some`: which values of fields the stored values denote.
* `Converts.bind`: computations in a row read their blocks in a row.
* `Block.converts`: the conversion of a block reads the visible blocks and mirrors them.
* `Document.toWorkspace_faithful`: a document converts if and only if its visible blocks
  are readable, to what mirrors them; the error else is about the first that is not, and
  what is not visible is not looked at.
-/

namespace PollScript

/-- The ids of a block and all below it: its own, then those in its inputs as they stand,
    then those behind it. -/
def Block.ids : Block → List String :=
  Block.fold fun b inputs next => b.id :: (inputs.flatMap (·.2) ++ next.getD [])

theorem Block.ids_eq (b : Block) :
    b.ids = b.id :: (b.inputs.flatMap (·.2.ids) ++ (b.next.map Block.ids).getD []) := by
  rw [Block.ids, Block.fold_eq, Dictionary.mapValues, List.flatMap_map]

namespace Saved

variable (scope : List Variable)

/-! ## Stored values -/

/-- The id is that of a variable with the name, and of no later variable. -/
def RefersTo (id name : String) : Prop :=
  ∃ before v after, scope = before ++ v :: after ∧ v.id = id ∧ v.name = name ∧
    ∀ later ∈ after, later.id ≠ id

/-- What a stored value denotes as the value of a field. -/
inductive Denotes : Json.Value → FieldValue → Prop
  | text (s : String) : Denotes (.text s) (.text s)
  | int (n : Int) : Denotes (.int n) (.number (Float.ofInt n))
  | float (x : Float) : Denotes (.float x) (.number x)
  | true : Denotes (.bool true) (.text "TRUE")
  | false : Denotes (.bool false) (.text "FALSE")
  /-- An object with the id of a variable denotes the name of the variable. -/
  | reference {members : List (String × Json.Value)} {id name : String}
      (hid : Dictionary.get? members "id" = some (.text id)) (h : RefersTo scope id name) :
      Denotes (.object members) (.text name)
  /-- An object without the id of a variable denotes the name that it has itself. -/
  | ownName {members : List (String × Json.Value)} {name : String}
      (hid : ∀ v ∈ scope, Dictionary.get? members "id" ≠ some (.text v.id))
      (h : Dictionary.get? members "name" = some (.text name)) :
      Denotes (.object members) (.text name)

theorem variableName?_eq_some {id name : String} :
    variableName? scope id = some name ↔ RefersTo scope id name := by
  unfold variableName?
  rw [Option.map_eq_some_iff]
  constructor
  · rintro ⟨v, hv, hname⟩
    obtain ⟨hid, later, earlier, hscope, hlater⟩ := List.find?_eq_some_iff_append.mp hv
    refine ⟨earlier.reverse, v, later.reverse, ?_, by simpa using hid, hname, ?_⟩
    · simpa using congrArg List.reverse hscope
    · simpa using hlater
  · rintro ⟨before, v, after, hscope, hid, hname, hafter⟩
    refine ⟨v, List.find?_eq_some_iff_append.mpr ⟨by simpa using hid, after.reverse,
      before.reverse, by simp [hscope], by simpa using hafter⟩, hname⟩

theorem variableName?_eq_none {id : String} :
    variableName? scope id = none ↔ ∀ v ∈ scope, v.id ≠ id := by
  simp [variableName?]

/-- The value of an object is the name that its id refers to, or else its own. -/
theorem reference?_eq_some {members : List (String × Json.Value)} {name : String} :
    reference? scope (.object members) = some name ↔
      Denotes scope (.object members) (.text name) := by
  have hasText : ∀ key text,
      ((Json.Value.object members).member? key).bind Json.Value.asText? = some text ↔
        Dictionary.get? members key = some (.text text) := by
    intro key text
    rw [Option.bind_eq_some_iff]
    constructor
    · rintro ⟨value, hvalue, htext⟩
      cases value <;> cases htext
      exact hvalue
    · exact fun h => ⟨_, h, rfl⟩
  unfold reference?
  rw [Option.orElse_eq_or, Option.or_eq_some_iff]
  constructor
  · rintro (h | ⟨hnone, hname⟩)
    · obtain ⟨id, hid, hvariable⟩ := Option.bind_eq_some_iff.mp h
      exact .reference ((hasText _ _).mp hid) ((variableName?_eq_some scope).mp hvariable)
    · refine .ownName (fun v hv hid => ?_) ((hasText _ _).mp hname)
      have hunknown := Option.bind_eq_none_iff.mp hnone v.id ((hasText _ _).mpr hid)
      exact (variableName?_eq_none scope).mp hunknown v hv rfl
  · intro h
    cases h with
    | reference hid h =>
      exact .inl (Option.bind_eq_some_iff.mpr
        ⟨_, (hasText _ _).mpr hid, (variableName?_eq_some scope).mpr h⟩)
    | ownName hid h =>
      refine .inr ⟨Option.bind_eq_none_iff.mpr fun id htext => ?_, (hasText _ _).mpr h⟩
      exact (variableName?_eq_none scope).mpr fun v hv heq =>
        hid v hv (heq ▸ (hasText _ _).mp htext)

/-- The computed values are the denoted ones. -/
theorem fieldValue?_eq_some {value : Json.Value} {f : FieldValue} :
    fieldValue? scope value = some f ↔ Denotes scope value f := by
  constructor
  · intro h
    cases value with
    | text s => cases h; exact .text s
    | int n => cases h; exact .int n
    | float x => cases h; exact .float x
    | bool b => cases b <;> cases h <;> constructor
    | object members =>
      obtain ⟨name, hname, rfl⟩ := Option.map_eq_some_iff.mp h
      exact (reference?_eq_some scope).mp hname
    | null => cases h
    | array items => cases h
  · intro h
    have hobject {members : List (String × Json.Value)} {name : String}
        (h : Denotes scope (.object members) (.text name)) :
        fieldValue? scope (.object members) = some (.text name) :=
      congrArg (Option.map FieldValue.text) ((reference?_eq_some scope).mpr h)
    cases h with
    | reference hid h => exact hobject (.reference hid h)
    | ownName hid h => exact hobject (.ownName hid h)
    | _ => rfl

/-! ## What a workspace keeps of a document -/

/-- The stored value of a field. The last one of a name counts. -/
def Block.stored? (b : Block) (field : String) : Option Json.Value :=
  Dictionary.get? b.fields.reverse field

/-- Every stored value of the block is the value of a field. -/
def Block.Readable (b : Block) : Prop :=
  ∀ field value, b.stored? field = some value → ∃ f, Denotes scope value f

/-- A block of a workspace mirrors a visible block of a document. -/
inductive Mirrors : Block → PollScript.Block → Prop
  /-- It has the type, the given id, the denoted fields, and what mirrors the occupants of
      the inputs and the block that follows. It takes part unless the document says that it
      does not or why it does not. -/
  | mk {b : Block} {c : PollScript.Block}
      (type : c.type = b.type)
      (id : ∀ id, b.id = some id → c.id = id)
      (enabled : c.enabled = true ↔
        (b.enabled = none ∨ b.enabled = some true) ∧ b.disabledReasons = [])
      (fields : ∀ field, Option.Rel (Denotes scope) (b.stored? field) (c.field? field))
      (inputs : ∀ slot, Option.Rel (Mirrors) (b.occupant? slot) (c.input? slot))
      (next : Option.Rel (Mirrors) b.follower? c.next) :
      Mirrors b c

/-- The report is about the first of the blocks that is not readable, and about one of its
    fields that has no value. -/
def FirstUnreadable (blocks : List (String × Block)) (u : Unreadable) : Prop :=
  ∃ before b after, blocks = before ++ (u.block, b) :: after ∧
    (∀ earlier ∈ before, earlier.2.Readable scope) ∧
    b.stored? u.field = some u.value ∧ ∀ f, ¬Denotes scope u.value f

/-! ## Computations that read blocks -/

/-- The computation reads the blocks in a row. It ends well if all are readable, with what
    is said of their ids and the result, and otherwise reports the first that is not. -/
structure Converts {α : Type} (blocks : List Block) (post : List String → α → Prop)
    (x : Conversion α) : Prop where
  ok : ∀ count a count', x.run count = .ok (a, count') →
    count' = count + anonymous blocks ∧ (∀ b ∈ blocks, b.Readable scope) ∧
      post ((named count blocks).map (·.1)) a
  error : ∀ count u, x.run count = .error u → FirstUnreadable scope (named count blocks) u

variable {scope} {α β : Type}

theorem FirstUnreadable.append_left {blocks others : List (String × Block)} {u : Unreadable}
    (h : FirstUnreadable scope blocks u) : FirstUnreadable scope (blocks ++ others) u := by
  obtain ⟨before, b, after, rfl, hfirst⟩ := h
  exact ⟨before, b, after ++ others, by simp, hfirst⟩

theorem FirstUnreadable.append_right {blocks others : List (String × Block)} {u : Unreadable}
    (h : FirstUnreadable scope others u) (hblocks : ∀ b ∈ blocks, b.2.Readable scope) :
    FirstUnreadable scope (blocks ++ others) u := by
  obtain ⟨before, b, after, rfl, hbefore, hfirst⟩ := h
  refine ⟨blocks ++ before, b, after, by simp, fun earlier hearlier => ?_, hfirst⟩
  exact (List.mem_append.mp hearlier).elim (hblocks earlier) (hbefore earlier)

theorem mem_of_mem_named {count : Nat} {blocks : List Block} {entry : String × Block}
    (h : entry ∈ named count blocks) : entry.2 ∈ blocks := by
  have hmap : (named count blocks).map (·.2) = blocks := map_snd_named count blocks
  exact hmap ▸ List.mem_map_of_mem h

namespace Converts

protected theorem pure {post : List String → α → Prop} {a : α} (h : post [] a) :
    Converts scope [] post (pure a) where
  ok := by
    intro count b count' hb
    cases hb
    exact ⟨rfl, fun b hb => absurd hb List.not_mem_nil, h⟩
  error := by
    intro count u hu
    cases hu

/-- The second computation numbers the blocks on from the first one, and is only reached
    if all that the first one reads is readable. -/
theorem bind {blocks others : List Block} {mid : List String → α → Prop}
    {post : List String → β → Prop} {x : Conversion α} {f : α → Conversion β}
    (hx : Converts scope blocks mid x)
    (hf : ∀ ids a, mid ids a → Converts scope others (fun more b => post (ids ++ more) b) (f a)) :
    Converts scope (blocks ++ others) post (x >>= f) where
  ok := by
    intro count b count' h
    rw [StateT.run_bind] at h
    obtain ⟨⟨a, middle⟩, ha, hb⟩ := bind_eq_ok.mp h
    obtain ⟨rfl, hblocks, hmid⟩ := hx.ok count a middle ha
    obtain ⟨rfl, hothers, hpost⟩ := (hf _ a hmid).ok _ b count' hb
    refine ⟨?_, fun c hc => (List.mem_append.mp hc).elim (hblocks c) (hothers c), ?_⟩
    · simp [anonymous, List.countP_append, Nat.add_assoc]
    · rwa [named_append, List.map_append]
  error := by
    intro count u h
    rw [StateT.run_bind] at h
    rw [named_append]
    cases ha : x.run count with
    | error e =>
      rw [ha] at h
      cases h
      exact (hx.error count u ha).append_left
    | ok ended =>
      obtain ⟨a, middle⟩ := ended
      rw [ha] at h
      obtain ⟨rfl, hblocks, hmid⟩ := hx.ok count a middle ha
      refine ((hf _ a hmid).error _ u h).append_right fun entry hentry => ?_
      exact hblocks _ (mem_of_mem_named hentry)

theorem map {blocks : List Block} {mid : List String → α → Prop}
    {post : List String → β → Prop} {x : Conversion α} {f : α → β}
    (hx : Converts scope blocks mid x) (himp : ∀ ids a, mid ids a → post ids (f a)) :
    Converts scope blocks post (f <$> x) := by
  have h : Converts scope (blocks ++ []) post (x >>= fun a => pure (f a)) :=
    hx.bind fun ids a hmid => .pure (by simpa using himp ids a hmid)
  simpa using h

end Converts

/-! ## The head of a block -/

theorem chooseId_run (b : Block) (count : Nat) :
    ∃ id, named count [b] = [(id, b)] ∧ (∀ given, b.id = some given → id = given) ∧
      (chooseId b.type b.id).run count = .ok (id, count + anonymous [b]) := by
  cases hid : b.id with
  | some given =>
    have hnone : anonymous [b] = 0 := by simp [anonymous, hid]
    refine ⟨given, by simp [named, hid], fun other hother => Option.some.inj hother, ?_⟩
    rw [hnone]
    rfl
  | none =>
    have hone : anonymous [b] = 1 := by simp [anonymous, hid]
    refine ⟨b.type ++ "#" ++ toString (count + 1), by simp [named, hid], by simp, ?_⟩
    rw [hone]
    rfl

/-- A block gets its id, and then its fields are converted. -/
theorem Block.convertHead_run (scope : List Variable) (b : Block) (count : Nat) :
    ∃ id, named count [b] = [(id, b)] ∧ (∀ given, b.id = some given → id = given) ∧
      (b.convertHead scope).run count =
        ((Dictionary.sorted b.fields).mapM (convertField scope id)).map
          fun fields => ((id, fields), count + anonymous [b]) := by
  obtain ⟨id, hnamed, hgiven, hrun⟩ := chooseId_run b count
  refine ⟨id, hnamed, hgiven, ?_⟩
  rw [convertHead, StateT.run_bind, hrun]
  show (liftM ((Dictionary.sorted b.fields).mapM (convertField scope id)) >>= fun fields =>
    pure (id, fields) : Conversion _).run (count + anonymous [b]) = _
  cases (Dictionary.sorted b.fields).mapM (convertField scope id) <;> rfl

theorem fields_of_mapM_eq_ok {id : String} {stored : Dictionary Json.Value}
    {fields : List (String × FieldValue)}
    (h : stored.mapM (convertField scope id) = .ok fields) (field : String) :
    Option.Rel (Denotes scope) (Dictionary.get? stored field) (Dictionary.get? fields field) := by
  induction stored generalizing fields with
  | nil => cases h; exact .none
  | cons entry rest ih =>
    obtain ⟨name, value⟩ := entry
    rw [List.mapM_cons] at h
    obtain ⟨converted, hconverted, h⟩ := bind_eq_ok.mp h
    obtain ⟨others, hothers, h⟩ := bind_eq_ok.mp h
    cases h
    unfold convertField at hconverted
    split at hconverted
    · next f hf =>
      cases hconverted
      rw [Dictionary.get?_cons, Dictionary.get?_cons]
      split
      · exact .some ((fieldValue?_eq_some scope).mp hf)
      · exact ih hothers
    · cases hconverted

theorem unreadable_of_mapM_eq_error {id : String} {stored : Dictionary Json.Value}
    {u : Unreadable} (h : stored.mapM (convertField scope id) = .error u) :
    u.block = id ∧ (u.field, u.value) ∈ stored ∧ ∀ f, ¬Denotes scope u.value f := by
  induction stored with
  | nil => cases h
  | cons entry rest ih =>
    obtain ⟨name, value⟩ := entry
    rw [List.mapM_cons, convertField] at h
    split at h
    · cases hrest : rest.mapM (convertField scope id) with
      | ok others => rw [hrest] at h; cases h
      | error e =>
        rw [hrest] at h
        cases h
        obtain ⟨hblock, hmem, hvalue⟩ := ih hrest
        exact ⟨hblock, List.mem_cons_of_mem _ hmem, hvalue⟩
    · next hnone =>
      cases h
      refine ⟨rfl, List.mem_cons_self, fun f hf => ?_⟩
      have hsome := (fieldValue?_eq_some scope).mpr hf
      rw [hnone] at hsome
      cases hsome

/-- The head of a block reads the block alone. -/
theorem Block.converts_head (b : Block) :
    Converts scope [b]
      (fun ids head => ids = [head.1] ∧ (∀ given, b.id = some given → head.1 = given) ∧
        ∀ field, Option.Rel (Denotes scope) (b.stored? field) (Dictionary.get? head.2 field))
      (b.convertHead scope) where
  ok := by
    intro count head count' h
    obtain ⟨id, hnamed, hgiven, hrun⟩ := b.convertHead_run scope count
    rw [hrun] at h
    cases hmapM : (Dictionary.sorted b.fields).mapM (convertField scope id) with
    | error e => rw [hmapM] at h; cases h
    | ok fields =>
      rw [hmapM] at h
      cases h
      have hfields : ∀ field,
          Option.Rel (Denotes scope) (b.stored? field) (Dictionary.get? fields field) := by
        intro field
        rw [Block.stored?, ← Dictionary.get?_sorted]
        exact fields_of_mapM_eq_ok hmapM field
      refine ⟨rfl, fun c hc field value hvalue => ?_, by rw [hnamed]; rfl, hgiven, hfields⟩
      obtain rfl := List.mem_singleton.mp hc
      have hfield := hfields field
      rw [hvalue] at hfield
      generalize Dictionary.get? fields field = converted at hfield
      cases hfield with
      | some hdenotes => exact ⟨_, hdenotes⟩
  error := by
    intro count u h
    obtain ⟨id, hnamed, hgiven, hrun⟩ := b.convertHead_run scope count
    rw [hrun] at h
    cases hmapM : (Dictionary.sorted b.fields).mapM (convertField scope id) with
    | ok fields => rw [hmapM] at h; cases h
    | error e =>
      rw [hmapM] at h
      cases h
      obtain ⟨rfl, hmem, hvalue⟩ := unreadable_of_mapM_eq_error hmapM
      have hstored : b.stored? u.field = some u.value := by
        rw [Block.stored?, ← Dictionary.get?_sorted]
        exact Dictionary.get?_of_nodup (Dictionary.ascending_sorted _).nodup hmem
      refine ⟨[], b, [], hnamed, fun earlier hearlier => ?_, hstored, hvalue⟩
      cases hearlier

/-! ## Trees -/

/-- The conversion of a block reads the visible blocks, and what comes of it mirrors
    them. -/
def Block.Faithful (scope : List Variable) (b : Block) : Prop :=
  Converts scope b.visible (fun ids c => Mirrors scope b c ∧ c.ids = ids) (b.convert scope)

theorem converts_all {entries : Dictionary Block}
    (h : ∀ slot child, (slot, child) ∈ entries → child.Faithful scope) :
    Converts scope (entries.flatMap (·.2.visible))
      (fun ids inputs =>
        (∀ slot, Option.Rel (Mirrors scope) (Dictionary.get? entries slot)
          (Dictionary.get? inputs slot)) ∧ inputs.flatMap (·.2.ids) = ids)
      (convertAll (Dictionary.mapValues (Block.convert scope) entries)) := by
  induction entries with
  | nil => exact .pure ⟨fun slot => .none, rfl⟩
  | cons entry rest ih =>
    obtain ⟨name, child⟩ := entry
    refine (h name child List.mem_cons_self).bind fun ids c ⟨hc, hids⟩ => ?_
    have hrest := ih fun slot other hother => h slot other (List.mem_cons_of_mem _ hother)
    rw [bind_pure_comp]
    refine hrest.map fun more inputs ⟨hinputs, hmore⟩ => ⟨fun slot => ?_, ?_⟩
    · rw [Dictionary.get?_cons, Dictionary.get?_cons]
      split
      · exact .some hc
      · exact hinputs slot
    · simp [hids, hmore]

theorem converts_next {next : Option Block}
    (h : ∀ follower, next = some follower → follower.Faithful scope) :
    Converts scope ((next.map Block.visible).getD [])
      (fun ids c => Option.Rel (Mirrors scope) next c ∧ (c.map PollScript.Block.ids).getD [] = ids)
      (convertNext (next.map (Block.convert scope))) := by
  cases next with
  | none => exact .pure ⟨.none, rfl⟩
  | some follower => exact (h follower rfl).map fun ids c ⟨hc, hids⟩ => ⟨.some hc, hids⟩

/-- The conversion of a block reads the visible blocks and mirrors them. -/
theorem Block.converts (b : Block) : b.Faithful scope := by
  induction b using tree_induction with
  | step b inputs next =>
    unfold Faithful
    rw [visible_eq, convert_eq]
    refine (Block.converts_head b).bind fun ids head ⟨hids, hid, hfields⟩ => ?_
    refine (converts_all inputs).bind fun inputIds below ⟨hbelow, hinputIds⟩ => ?_
    rw [bind_pure_comp]
    refine (converts_next next).map fun nextIds behind ⟨hbehind, hnextIds⟩ => ⟨?_, ?_⟩
    · refine .mk rfl hid ?_ hfields hbelow hbehind
      cases b.enabled <;> simp
    · rw [PollScript.Block.ids_eq]
      simp [hids, hinputIds, hnextIds]

/-! ## Documents -/

theorem Document.converts (d : Document) :
    Converts d.scope d.visible
      (fun ids blocks => List.Forall₂ (Mirrors d.scope) d.blocks blocks ∧
        blocks.flatMap PollScript.Block.ids = ids) d.convert := by
  unfold Document.visible Document.convert
  induction d.blocks with
  | nil => exact .pure ⟨.nil, rfl⟩
  | cons b rest ih =>
    rw [List.mapM_cons, List.flatMap_cons]
    refine b.converts.bind fun ids c ⟨hc, hids⟩ => ?_
    rw [bind_pure_comp]
    refine ih.map fun more others ⟨hothers, hmore⟩ => ⟨.cons hc hothers, ?_⟩
    simp [hids, hmore]

theorem Document.convert_pruned (d : Document) : d.pruned.convert = d.convert := by
  have hblocks : (Block.convert d.scope ∘ Block.pruned) = Block.convert d.scope :=
    funext (Block.convert_pruned d.scope)
  rw [Document.convert, Document.convert, Document.pruned, List.mapM_map, hblocks]

theorem FirstUnreadable.exists_unreadable {blocks : List (String × Block)} {u : Unreadable}
    (h : FirstUnreadable scope blocks u) : ∃ b ∈ blocks, ¬b.2.Readable scope := by
  obtain ⟨before, b, after, rfl, -, hstored, hvalue⟩ := h
  refine ⟨_, List.mem_append_right _ List.mem_cons_self, fun hreadable => ?_⟩
  obtain ⟨f, hf⟩ := hreadable _ _ hstored
  exact hvalue f hf

/-- The description of an unreadable field begins with the names of the field and of the
    block. -/
theorem Unreadable.exists_describe_eq (u : Unreadable) : ∃ complaint,
    u.describe = "field '" ++ u.field ++ "' on block '" ++ u.block ++ "' " ++ complaint := by
  unfold Unreadable.describe
  dsimp only
  split
  · exact ⟨_, rfl⟩
  · exact ⟨_, String.append_assoc⟩

/-- The workspace that a conversion of top-level blocks makes, or what it reports. -/
def workspaceOf (x : Conversion (List PollScript.Block)) : Except WorkspaceError Workspace :=
  match x.run 0 with
  | .ok (blocks, _) => .ok ⟨blocks⟩
  | .error unreadable => .error (.invalid unreadable.describe)

theorem workspaceOf_eq_ok {x : Conversion (List PollScript.Block)} {w : Workspace} :
    workspaceOf x = .ok w ↔ ∃ count, x.run 0 = .ok (w.blocks, count) := by
  unfold workspaceOf
  cases hrun : x.run 0 with
  | error u => simp
  | ok ended =>
    obtain ⟨blocks, count⟩ := ended
    cases w; simp

theorem workspaceOf_eq_error {x : Conversion (List PollScript.Block)} {e : WorkspaceError} :
    workspaceOf x = .error e ↔ ∃ u, x.run 0 = .error u ∧ e = .invalid u.describe := by
  unfold workspaceOf
  cases hrun : x.run 0 with
  | error u => simp [eq_comm]
  | ok ended => simp

theorem Document.toWorkspace_eq_ok {d : Document} {w : Workspace} :
    d.toWorkspace = .ok w ↔ ∃ count, d.convert.run 0 = .ok (w.blocks, count) :=
  workspaceOf_eq_ok

theorem Document.toWorkspace_eq_error {d : Document} {e : WorkspaceError} :
    d.toWorkspace = .error e ↔ ∃ u, d.convert.run 0 = .error u ∧ e = .invalid u.describe :=
  workspaceOf_eq_error

/-- A document converts if and only if every visible block is readable. The workspace then
    mirrors the visible part of the document, block by block and with the ids in the same
    order. Otherwise the error is about the first visible block that is not readable, and
    about one of its fields that has no value, and says so. What is not visible has no part
    in it. -/
theorem Document.toWorkspace_faithful (d : Document) :
    ((∃ w, d.toWorkspace = .ok w) ↔ ∀ b ∈ d.visible, b.Readable d.scope) ∧
      (∀ w, d.toWorkspace = .ok w → List.Forall₂ (Mirrors d.scope) d.blocks w.blocks ∧
        w.blocks.flatMap PollScript.Block.ids = (named 0 d.visible).map (·.1)) ∧
      (∀ e, d.toWorkspace = .error e → ∃ u complaint,
        FirstUnreadable d.scope (named 0 d.visible) u ∧ e = .invalid u.describe ∧
          u.describe =
            "field '" ++ u.field ++ "' on block '" ++ u.block ++ "' " ++ complaint) ∧
      d.pruned.toWorkspace = d.toWorkspace := by
  have hconverts := Document.converts d
  refine ⟨⟨?_, fun hreadable => ?_⟩, fun w hw => ?_, fun e he => ?_, ?_⟩
  · rintro ⟨w, hw⟩
    obtain ⟨count, hrun⟩ := toWorkspace_eq_ok.mp hw
    exact (hconverts.ok _ _ _ hrun).2.1
  · cases hd : d.toWorkspace with
    | ok w => exact ⟨w, rfl⟩
    | error e =>
      obtain ⟨u, hrun, -⟩ := toWorkspace_eq_error.mp hd
      obtain ⟨b, hb, hnot⟩ := (hconverts.error _ _ hrun).exists_unreadable
      exact absurd (hreadable b.2 (mem_of_mem_named hb)) hnot
  · obtain ⟨count, hrun⟩ := toWorkspace_eq_ok.mp hw
    exact (hconverts.ok _ _ _ hrun).2.2
  · obtain ⟨u, hrun, rfl⟩ := toWorkspace_eq_error.mp he
    obtain ⟨complaint, hcomplaint⟩ := u.exists_describe_eq
    exact ⟨u, complaint, hconverts.error _ _ hrun, rfl, hcomplaint⟩
  · rw [toWorkspace, toWorkspace, convert_pruned]

/-- A hidden shadow may hold any value. -/
example :
    Document.toWorkspace ⟨0, [⟨"a", none, none, [], [("F", .text "x")],
      [("IN", ⟨some ⟨"b", none, some true, ["r"], [], [], none⟩,
        some ⟨"c", none, none, [], [("F", .null)], [], none⟩⟩)], none⟩], []⟩ =
      .ok ⟨[⟨"a#1", "a", true, [("F", .text "x")],
        [("IN", ⟨"b#2", "b", false, [], [], none⟩)], none⟩]⟩ := by
  rfl

/-- A shadow without a block beside it may not. -/
example :
    Document.toWorkspace ⟨0, [⟨"a", none, none, [], [("F", .text "x")],
      [("IN", ⟨none, some ⟨"c", none, none, [], [("F", .null)], [], none⟩⟩)], none⟩], []⟩ =
      .error (.invalid "field 'F' on block 'c#2' has unsupported value null") := by
  rfl

end Saved

end PollScript
