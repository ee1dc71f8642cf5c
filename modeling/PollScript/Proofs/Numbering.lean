import PollScript.Proofs.Conversion
import PollScript.Proofs.Numerals

/-!
# Numbers of blocks without an id

A block that is saved without an id gets one from its type and a number. The numbers count
such blocks in pre-order: a block, then what is in its inputs by ascending name, then what
follows it, and top-level blocks as they stand. No number is used twice, and an id shows
its number, however the type reads. So no two of these ids are the same.

Results:

* `number_eq_of_id_eq`: an id that is made from a number tells the number.
* `Block.converts_inOrder`: the inputs of a converted block are listed by ascending name.
* `Mirrors.preorder`: what mirrors a block in pre-order mirrors what is visible of it.
* `ids_unnamed`: blocks without an id are numbered on from those before them.
* `Document.toWorkspace_numbered`: the numbers of a document start at one, leave no gap, and
  make ids that are pairwise distinct.
-/

namespace PollScript

/-! ## Pre-order -/

/-- The block and all below it: itself, then what is in its inputs by ascending name, then
    what follows. -/
def Block.preorder : Block → List Block :=
  fold fun b inputs next => b :: ((Dictionary.sorted inputs).flatMap (·.2) ++ next.getD [])

theorem Block.preorder_eq (b : Block) :
    b.preorder =
      b :: ((Dictionary.sorted b.inputs).flatMap (·.2.preorder) ++
        (b.next.map Block.preorder).getD []) := by
  rw [preorder, fold_eq, Dictionary.sorted_mapValues, Dictionary.mapValues, List.flatMap_map]

/-- The blocks of a workspace in pre-order. -/
def Workspace.preorder (w : Workspace) : List Block :=
  w.blocks.flatMap Block.preorder

/-- The inputs are listed by ascending name, and so are those of all blocks below. -/
inductive Block.InOrder : Block → Prop
  | mk {b : Block} (inputs : Dictionary.Ascending b.inputs)
      (inside : ∀ slot child, (slot, child) ∈ b.inputs → child.InOrder)
      (next : ∀ follower, b.next = some follower → follower.InOrder) : b.InOrder

/-- Of a block whose inputs are in order, the ids are those in pre-order. -/
theorem Block.InOrder.map_id_preorder {b : Block} (h : b.InOrder) :
    b.preorder.map (·.id) = b.ids := by
  induction h with
  | @mk b inputs _ _ ihInside ihNext =>
    have hinside : b.inputs.map (fun entry => entry.2.preorder.map (·.id)) =
        b.inputs.map fun entry => entry.2.ids :=
      List.map_congr_left fun entry hentry => ihInside entry.1 entry.2 hentry
    have hnext : ((b.next.map Block.preorder).getD []).map (·.id) =
        (b.next.map Block.ids).getD [] := by
      cases hb : b.next with
      | none => rfl
      | some follower => exact ihNext follower hb
    rw [preorder_eq, ids_eq, Dictionary.sorted_of_ascending inputs, List.map_cons,
      List.map_append, List.map_flatMap, hnext, List.flatMap, List.flatMap, hinside]

/-! ## Ids that are made from numbers -/

/-- Behind the last `#` of an id stands its number. -/
theorem takeWhile_reverse_id (type : String) (n : Nat) :
    (type ++ "#" ++ toString n).toList.reverse.takeWhile (· ≠ '#') =
      (Nat.toDigits 10 n).reverse := by
  have hdigits : ∀ c ∈ (Nat.toDigits 10 n).reverse, (decide (c ≠ '#')) = true := by
    intro c hc
    have hdigit := (isDigits_iff.mp (isDigits_toDigits n)).2 c (List.mem_reverse.mp hc)
    rw [decide_eq_true_iff]
    rintro rfl
    exact absurd hdigit (by decide)
  have hchars : (type ++ "#" ++ toString n).toList.reverse =
      (Nat.toDigits 10 n).reverse ++ '#' :: type.toList.reverse := by
    simp
  rw [hchars, List.takeWhile_append_of_pos hdigits, List.takeWhile_cons_of_neg (by simp),
    List.append_nil]

/-- Ids with different numbers are different, whatever the types are. -/
theorem number_eq_of_id_eq {type type' : String} {m n : Nat}
    (h : type ++ "#" ++ toString m = type' ++ "#" ++ toString n) : m = n := by
  have hdigits : Nat.toDigits 10 m = Nat.toDigits 10 n := by
    rw [← List.reverse_inj, ← takeWhile_reverse_id type m, ← takeWhile_reverse_id type' n, h]
  have hvalue := congrArg (fun ds => Nat.ofDigitChars 10 ds 0) hdigits
  simpa using hvalue

/-- Ids with consecutive numbers are pairwise distinct. -/
theorem nodup_numbered (types : List String) (first : Nat) :
    ((types.zipIdx first).map fun entry => entry.1 ++ "#" ++ toString entry.2).Nodup := by
  have hnumbers : ((types.zipIdx first).map (·.2)).Nodup := by
    rw [List.zipIdx_map_snd]
    exact List.nodup_range'
  refine List.pairwise_map.mpr ((List.pairwise_map.mp hnumbers).imp fun hne heq => ?_)
  exact hne (number_eq_of_id_eq heq)

namespace Saved

variable {scope : List Variable}

/-! ## Converted blocks -/

theorem converts_inOrder_all {entries : Dictionary Block}
    (h : ∀ slot child, (slot, child) ∈ entries →
      Converts scope child.visible (fun _ c => c.InOrder) (child.convert scope)) :
    Converts scope (entries.flatMap (·.2.visible))
      (fun _ inputs => Dictionary.keys inputs = Dictionary.keys entries ∧
        ∀ slot c, (slot, c) ∈ inputs → c.InOrder)
      (convertAll (Dictionary.mapValues (Block.convert scope) entries)) := by
  induction entries with
  | nil => exact .pure ⟨rfl, fun slot c hc => by cases hc⟩
  | cons entry rest ih =>
    obtain ⟨name, child⟩ := entry
    refine (h name child List.mem_cons_self).bind fun _ c hc => ?_
    have hrest := ih fun slot other hother => h slot other (List.mem_cons_of_mem _ hother)
    rw [bind_pure_comp]
    refine hrest.map fun _ inputs ⟨hkeys, hinputs⟩ => ⟨congrArg (name :: ·) hkeys, ?_⟩
    intro slot other hother
    rcases List.mem_cons.mp hother with heq | hother
    · cases heq; exact hc
    · exact hinputs slot other hother

theorem converts_inOrder_next {next : Option Block}
    (h : ∀ follower, next = some follower →
      Converts scope follower.visible (fun _ c => c.InOrder) (follower.convert scope)) :
    Converts scope ((next.map Block.visible).getD [])
      (fun _ made => ∀ c, made = some c → c.InOrder)
      (convertNext (next.map (Block.convert scope))) := by
  cases next with
  | none => exact .pure fun c hc => by cases hc
  | some follower => exact (h follower rfl).map fun _ c hc other hother => by cases hother; exact hc

/-- The inputs of a converted block are listed by ascending name, and so are those of all
    blocks below it. -/
theorem Block.converts_inOrder (b : Block) :
    Converts scope b.visible (fun _ c => c.InOrder) (b.convert scope) := by
  induction b using tree_induction with
  | step b inputs next =>
    rw [visible_eq, convert_eq]
    refine (Block.converts_head b).bind fun _ head _ => ?_
    refine (converts_inOrder_all inputs).bind fun _ below ⟨hkeys, hbelow⟩ => ?_
    rw [bind_pure_comp]
    refine (converts_inOrder_next next).map fun _ behind hbehind => .mk ?_ hbelow hbehind
    exact (Dictionary.ascending_sorted _).of_keys_eq hkeys

/-- In pre-order, what mirrors a block mirrors what is visible of it. -/
theorem Mirrors.preorder {b : Block} {c : PollScript.Block} (h : Mirrors scope b c)
    (hc : c.InOrder) : List.Forall₂ (Mirrors scope) b.visible c.preorder := by
  induction b using Block.tree_induction generalizing c with
  | step b inputs next =>
    have hbc := h
    obtain ⟨-, -, -, -, hinputs, hnext⟩ := h
    obtain ⟨hascending, hinside, hbehind⟩ := hc
    rw [Block.visible_eq, PollScript.Block.preorder_eq, Dictionary.sorted_of_ascending hascending]
    refine .cons hbc (List.rel_append ?_ ?_)
    · have hentries : ∀ slot, Option.Rel (fun x y => Mirrors scope x y ∧ y.InOrder)
          (Dictionary.get? b.occupants slot) (Dictionary.get? c.inputs slot) := by
        intro slot
        have hslot := hinputs slot
        unfold Block.occupant? PollScript.Block.input? at hslot
        generalize hfound : Dictionary.get? c.inputs slot = found at hslot ⊢
        generalize Dictionary.get? b.occupants slot = occupant at hslot ⊢
        cases hslot with
        | none => exact .none
        | some hchild => exact .some ⟨hchild, hinside _ _ (Dictionary.mem_of_get? hfound)⟩
      have ih : ∀ x ∈ b.occupants, ∀ y, Mirrors scope x.2 y → y.InOrder →
          List.Forall₂ (Mirrors scope) x.2.visible y.preorder :=
        fun x hx y hxy hy => inputs x.1 x.2 hx hxy hy
      have hforall := (List.forall₂_and_left _ _).mpr ⟨ih, Dictionary.forall₂_of_ascending
        (Dictionary.ascending_sorted _) hascending hentries⟩
      exact List.rel_flatMap hforall fun _ _ ⟨ih, _, hxy, hy⟩ => ih _ hxy hy
    · generalize b.follower? = follower at hnext next
      generalize c.next = behind at hnext hbehind
      cases hnext with
      | none => exact .nil
      | some hfollower => exact next _ rfl hfollower (hbehind _ rfl)

/-! ## Documents -/

theorem Document.converts_inOrder (d : Document) :
    Converts d.scope d.visible (fun _ blocks => ∀ b ∈ blocks, b.InOrder) d.convert := by
  unfold visible convert
  induction d.blocks with
  | nil => exact .pure fun b hb => absurd hb List.not_mem_nil
  | cons b rest ih =>
    rw [List.mapM_cons, List.flatMap_cons]
    refine b.converts_inOrder.bind fun _ c hc => ?_
    rw [bind_pure_comp]
    exact ih.map fun _ others hothers => List.forall_mem_cons.mpr ⟨hc, hothers⟩

/-- The blocks of the workspace of a document that are saved without an id, in
    pre-order. -/
def Document.unnamed (d : Document) (w : Workspace) : List PollScript.Block :=
  ((d.visible.zip w.preorder).filter (·.1.id.isNone)).map (·.2)

/-- Behind `count` blocks without an id, the ones that follow are numbered on. -/
theorem ids_unnamed {blocks : List Block} {made : List PollScript.Block} {count : Nat}
    (h : List.Forall₂ (Mirrors scope) blocks made)
    (hids : made.map (·.id) = (named count blocks).map (·.1)) :
    (((blocks.zip made).filter (·.1.id.isNone)).map (·.2.id)) =
      ((((blocks.zip made).filter (·.1.id.isNone)).map (·.2.type)).zipIdx (count + 1)).map
        fun entry => entry.1 ++ "#" ++ toString entry.2 := by
  induction h generalizing count with
  | nil => rfl
  | @cons b c blocks made hbc _ ih =>
    rw [named] at hids
    cases hid : b.id with
    | some id =>
      rw [hid] at hids
      have hrest := (List.cons.inj hids).2
      simpa [hid] using ih hrest
    | none =>
      rw [hid] at hids
      obtain ⟨hc, hrest⟩ := List.cons.inj hids
      obtain ⟨htype, -⟩ := hbc
      simpa [hid, htype, hc] using ih hrest

/-- What a document converts to mirrors its visible blocks in pre-order, and a block with an
    id keeps it. Those without one are numbered in pre-order from one on, without a gap, and
    each gets the id that its type and its number make. These ids are pairwise distinct. What
    is not visible has no number: the document without it has the same workspace. -/
theorem Document.toWorkspace_numbered {d : Document} {w : Workspace}
    (h : d.toWorkspace = .ok w) :
    List.Forall₂ (Mirrors d.scope) d.visible w.preorder ∧
      (∀ saved b, (saved, b) ∈ d.visible.zip w.preorder →
        ∀ id, saved.id = some id → b.id = id) ∧
      (d.unnamed w).map (·.id) =
        (((d.unnamed w).map (·.type)).zipIdx 1).map
          (fun entry => entry.1 ++ "#" ++ toString entry.2) ∧
      ((d.unnamed w).map (·.id)).Nodup ∧
      d.pruned.toWorkspace = .ok w := by
  obtain ⟨count, hrun⟩ := toWorkspace_eq_ok.mp h
  obtain ⟨-, -, hblocks, hids⟩ := d.converts.ok _ _ _ hrun
  obtain ⟨-, -, hordered⟩ := d.converts_inOrder.ok _ _ _ hrun
  have hmirrors : List.Forall₂ (Mirrors d.scope) d.visible w.preorder := by
    unfold visible Workspace.preorder
    generalize d.blocks = saved, w.blocks = made at hblocks hordered
    induction hblocks with
    | nil => exact .nil
    | cons hblock _ ih =>
      obtain ⟨hfirst, hrest⟩ := List.forall_mem_cons.mp hordered
      exact List.rel_append (hblock.preorder hfirst) (ih hrest)
  have hpreorder : w.preorder.map (·.id) = (named 0 d.visible).map (·.1) := by
    have hmap : w.blocks.map (fun b => b.preorder.map (·.id)) = w.blocks.map PollScript.Block.ids :=
      List.map_congr_left fun b hb => (hordered b hb).map_id_preorder
    rw [← hids, Workspace.preorder, List.map_flatMap, List.flatMap, List.flatMap, hmap]
  have hnumbers := ids_unnamed hmirrors hpreorder
  have hunnamed : (d.unnamed w).map (·.id) =
      (((d.unnamed w).map (·.type)).zipIdx 1).map
        fun entry => entry.1 ++ "#" ++ toString entry.2 := by
    simpa [unnamed, Function.comp_def] using hnumbers
  refine ⟨hmirrors, fun saved b hpair id hid => ?_, hunnamed, ?_, ?_⟩
  · obtain ⟨-, hgiven, -⟩ := List.forall₂_zip hmirrors hpair
    exact hgiven id hid
  · rw [hunnamed]
    exact nodup_numbered _ 1
  · rw [toWorkspace, convert_pruned]
    exact h

/-- A document with types that look like ids, a shadow that a block hides, and a block with
    the id that is also made from a number. -/
def lookalikes : Document :=
  ⟨0, [⟨"a#1", none, none, [], [],
      [("Y", ⟨some ⟨"b", none, none, [], [], [], none⟩,
          some ⟨"hidden", none, none, [], [], [], none⟩⟩),
        ("X", ⟨none, some ⟨"a", none, none, [], [], [], none⟩⟩)],
      some ⟨some ⟨"a#1#1", none, none, [], [], [], none⟩, none⟩⟩,
    ⟨"c", some "a#1#1", none, [], [], [], none⟩], []⟩

/-- The workspace of that document. -/
def lookalikesMade : Workspace :=
  ⟨[⟨"a#1#1", "a#1", true, [],
      [("X", ⟨"a#2", "a", true, [], [], none⟩), ("Y", ⟨"b#3", "b", true, [], [], none⟩)],
      some ⟨"a#1#1#4", "a#1#1", true, [], [], none⟩⟩,
    ⟨"a#1#1", "c", true, [], [], none⟩]⟩

/-- Types that look like ids get ids that are pairwise distinct all the same. -/
theorem Document.toWorkspace_numbered_lookalikes :
    lookalikes.toWorkspace = .ok lookalikesMade ∧
      (lookalikes.unnamed lookalikesMade).map (·.id) = ["a#1#1", "a#2", "b#3", "a#1#1#4"] ∧
      ((lookalikes.unnamed lookalikesMade).map (·.id)).Nodup := by
  obtain ⟨-, -, hids, hnodup, -⟩ :=
    toWorkspace_numbered (d := lookalikes) (w := lookalikesMade) rfl
  exact ⟨rfl, hids.trans rfl, hnodup⟩

end Saved

end PollScript
