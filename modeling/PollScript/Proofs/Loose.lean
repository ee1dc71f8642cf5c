import PollScript.Proofs.Erasure
import PollScript.Proofs.TaskBodies

/-!
# Chains left loose

The blocks of a top-level chain can as well stand on their own, one behind the other. Each is
emitted from the pass that the one before it leaves in either case, so the same is collected
and the same code is made. Only the empty lines between the codes differ.

The converse does not hold. A block that must not follow another one may still stand on its
own.

Results:

* `emitted_followedBy`: what follows a block does not change what it is emitted to.
* `exists_chunks_of_chain`: the blocks of a chain, left loose, give its code in pieces, and
  leave the pass that the chain leaves.
* `printedLines_generate_loose`: a script has the same lines that are not blank when a chain is left
  loose.
-/

namespace PollScript

open Script

/-- The blocks of a chain, each without the one that follows it. -/
def Block.loose (b : Block) : List Block :=
  b.chain.map (·.followedBy none)

theorem Block.loose_eq (b : Block) :
    b.loose = b.followedBy none :: (Block.chainOf b.next).map (·.followedBy none) := by
  rw [loose, chain_eq, List.map_cons]

/-- The lines of a text that are not blank. -/
def Text.printedLines (cs : List Char) : List (List Char) :=
  (lines cs).filter (!allBlank ·)

/-- In the normal form of a text, the lines that are not blank are its solid lines. -/
theorem Text.printedLines_tidy (code : String) :
    printedLines (tidy code).toList = (solidLines code.toList).filter (!allBlank ·) := by
  rw [printedLines, filter_lines_tidy code rfl, solidLines_tidy]

theorem Generation.yields_mapM_append {α γ : Type} {f : γ → Generation α} {front back : List γ}
    {pass after : Pass} {results : List α} :
    Yields ((front ++ back).mapM f) pass results after ↔ ∃ as mid bs,
      Yields (front.mapM f) pass as mid ∧ Yields (back.mapM f) mid bs after ∧
        results = as ++ bs := by
  rw [List.mapM_append, yields_bind]
  refine exists_congr fun as => exists_congr fun mid => ?_
  rw [yields_bind]
  constructor
  · rintro ⟨hfront, bs, _, hback, hpure⟩
    obtain ⟨rfl, rfl⟩ := yields_pure.mp hpure
    exact ⟨bs, hfront, hback, rfl⟩
  · rintro ⟨bs, hfront, hback, rfl⟩
    exact ⟨hfront, bs, after, hback, yields_pure.mpr ⟨rfl, rfl⟩⟩

namespace Generator

open Generation

variable {g : Generator} {b : Block} {pass after : Pass}

/-! ## Single blocks -/

/-- What follows a block does not change what it is emitted to. -/
theorem emitted_followedBy (hplain : g.Plain) (b : Block) (next : Option Block) :
    (g.resolve (b.followedBy next)).emitted = (g.resolve b).emitted :=
  emit_rewire hplain (fun _ _ _ => rfl) fun _ => rfl

theorem ownCode_followedBy (hplain : g.Plain) (b : Block) (next : Option Block) :
    ownCode (b.followedBy next) (g.resolve (b.followedBy next)).emitted =
      ownCode b (g.resolve b).emitted := by
  rw [emitted_followedBy hplain]
  have hstatement : statementOf (b.followedBy next) = statementOf b :=
    funext fun f => statementOf_congr rfl rfl f
  rw [ownCode, ownCode, hstatement]
  rfl

/-- A top-level block of a statement type begins a chain. -/
theorem topLevel_of_statement {spec : BlockSpec} (hspec : g.specOf b = .ok spec)
    (hvalue : spec.isValueBlock = false) :
    g.topLevel (g.resolve b) = (g.resolve b).chain false := by
  unfold topLevel
  rw [resolve_block, hspec]
  show (if spec.isValueBlock = true then _ else _) = _
  rw [hvalue, if_neg Bool.false_ne_true]

/-- A block that may stand in a chain can also stand on its own. -/
theorem yields_topLevel_loose (hplain : g.Plain) {attached : Bool} {own : String}
    (hlink : g.checkLink b attached = .ok ())
    (hown : Yields (ownCode b (g.resolve b).emitted) pass own after) :
    Yields (g.topLevel (g.resolve (b.followedBy none))) pass own after := by
  have hfirst : g.checkLink b false = .ok () := checkLink_mono (fun h => nomatch h) hlink
  have hloose : g.checkLink (b.followedBy none) false = .ok () := hfirst
  obtain ⟨spec, hspec, hkind⟩ := bind_eq_ok.mp hloose
  have hvalue : spec.isValueBlock = false := by
    cases hvalue : spec.isValueBlock with
    | false => rfl
    | true =>
      rw [if_pos hvalue] at hkind
      cases hkind
  rw [topLevel_of_statement hspec hvalue, yields_chain]
  refine ⟨hloose, own, after, "", ?_, yields_pure.mpr ⟨rfl, rfl⟩, String.append_empty.symm⟩
  rwa [ownCode_followedBy hplain]

/-! ## Chains -/

section Passes

variable (hplain : g.Plain) (hblank : Text.allBlank g.indent.toList = true)
  (hline : '\n' ∉ g.indent.toList)

include hplain hblank hline

/-- The code of a block in a chain consists of complete lines. -/
theorem endsLine_ownCode {own : String}
    (h : Yields (ownCode b (g.resolve b).emitted) pass own after) : EndsLine own := by
  rw [ownCode] at h
  split at h
  · obtain ⟨f, start, hf, hown⟩ := yields_bind.mp h
    obtain ⟨hstatement, -⟩ := yields_check.mp hown
    cases f with
    | expression text order => cases hstatement
    | statement text =>
      cases hstatement
      exact .inr (standsAlone_emitted hplain hblank hline b hf).ends
  · obtain ⟨rfl, -⟩ := yields_pure.mp h
    exact .inl rfl

/-- The blocks of a chain, left loose, leave the pass that the chain leaves. Their pieces have
    the lines of the code of the chain. -/
theorem exists_chunks_of_chain {attached : Bool} {code : String}
    (h : Yields ((g.resolve b).chain attached) pass code after) :
    ∃ chunks, Yields (b.loose.mapM fun c => g.topLevel (g.resolve c)) pass chunks after ∧
      (chunks.flatMap fun chunk => Text.solidLines chunk.toList) = Text.solidLines code.toList := by
  induction b using Block.tree_induction generalizing attached pass code with
  | step b inputs next =>
    obtain ⟨hlink, own, mid, more, hown, hmore, rfl⟩ := yields_chain.mp h
    obtain ⟨chunks, hchunks, hlines⟩ : ∃ chunks,
        Yields (((Block.chainOf b.next).map (·.followedBy none)).mapM
          fun c => g.topLevel (g.resolve c)) mid chunks after ∧
        (chunks.flatMap fun chunk => Text.solidLines chunk.toList) =
          Text.solidLines more.toList := by
      cases hnext : b.next with
      | none =>
        rw [hnext] at hmore
        obtain ⟨rfl, rfl⟩ := yields_pure.mp hmore
        exact ⟨[], yields_pure.mpr ⟨rfl, rfl⟩, rfl⟩
      | some follower =>
        rw [hnext] at hmore
        exact next follower hnext hmore
    rw [Block.loose_eq]
    refine ⟨own :: chunks, yields_mapM_cons.mpr ⟨own, mid, chunks, ?_, hchunks, rfl⟩, ?_⟩
    · exact yields_topLevel_loose hplain hlink hown
    · rw [List.flatMap_cons, hlines,
        (endsLine_ownCode hplain hblank hline hown).solidLines_append]

end Passes

/-! ## Scripts -/

/-- A script is finished from what a pass yields. -/
theorem generate_eq_ok_iff {w : Workspace} {script : String} :
    g.generate w = .ok script ↔ ∃ chunks pass,
      Yields (g.topLevels w) ⟨Context.withIndent g.indent, []⟩ chunks pass ∧
        (pass.context.finalize (joinChunks chunks)).1 = script := by
  rw [generate_eq]
  unfold Yields
  rcases (g.topLevels w).run.run ⟨Context.withIndent g.indent, []⟩ with ⟨result, pass⟩
  cases result with
  | error e =>
    constructor
    · intro h
      cases h
    · rintro ⟨_, _, heq, -⟩
      cases heq
  | ok chunks =>
    constructor
    · exact fun h => ⟨chunks, pass, rfl, Except.ok.inj h⟩
    · rintro ⟨_, _, heq, rfl⟩
      cases heq
      rfl

/-- The lines of a finished script that are not blank only depend on those of the pieces of
    its code. -/
theorem printedLines_finalize_congr {chunks chunks' : List String} (c : Context)
    (h : (chunks.flatMap fun code => Text.solidLines code.toList) =
      chunks'.flatMap fun code => Text.solidLines code.toList) :
    Text.printedLines (c.finalize (joinChunks chunks)).1.toList =
      Text.printedLines (c.finalize (joinChunks chunks')).1.toList := by
  have hjoined : Text.solidLines (joinChunks chunks).toList =
      Text.solidLines (joinChunks chunks').toList := by
    rw [solidLines_joinChunks, solidLines_joinChunks, h]
  rw [Context.finalize_fst, Context.finalize_fst, Text.printedLines_tidy, Text.printedLines_tidy,
    Context.solidLines_joinSections, Context.solidLines_joinSections]
  simp only [Context.sections, Context.arrange, List.flatMap_append, List.flatMap_cons, hjoined]

/-- Whatever the width of its indentation, the default generator gives a script if it gives one
    when a top-level chain of statements is linked, and the blocks of the chain are left loose
    in its place. Both scripts have the same lines that are not blank. -/
theorem printedLines_generate_loose {width : Nat} {g : Generator}
    (built : (Builder.default.indentWidth width).build = .ok g) {front back : List Block}
    {b : Block} {script : String}
    (statement : ∀ spec, g.registry.get? b.type = some spec → spec.isValueBlock = false)
    (h : g.generate ⟨front ++ b :: back⟩ = .ok script) :
    ∃ loose, g.generate ⟨front ++ b.loose ++ back⟩ = .ok loose ∧
      Text.printedLines loose.toList = Text.printedLines script.toList := by
  obtain ⟨hplain, -⟩ := Builder.plain_of_build built
  obtain ⟨hblank, hline⟩ := indent_of_build built
  obtain ⟨chunks, pass, hchunks, rfl⟩ := generate_eq_ok_iff.mp h
  obtain ⟨before, start, rest, hbefore, hrest, rfl⟩ := yields_mapM_append.mp hchunks
  obtain ⟨code, mid, behind, hcode, hbehind, rfl⟩ := yields_mapM_cons.mp hrest
  have hchain : Yields ((g.resolve b).chain false) start code mid := by
    cases hspec : g.specOf b with
    | error e =>
      rw [topLevel, resolve_block, hspec] at hcode
      cases hcode
    | ok spec =>
      rwa [topLevel_of_statement hspec (statement spec (g.specOf_eq_ok.mp hspec))] at hcode
  obtain ⟨pieces, hpieces, hlines⟩ := exists_chunks_of_chain hplain hblank hline hchain
  have hloose : Yields (g.topLevels ⟨front ++ b.loose ++ back⟩) ⟨Context.withIndent g.indent, []⟩
      (before ++ pieces ++ behind) pass := by
    refine yields_mapM_append.mpr ⟨before ++ pieces, mid, behind, ?_, hbehind, rfl⟩
    exact yields_mapM_append.mpr ⟨before, start, pieces, hbefore, hpieces, rfl⟩
  refine ⟨_, generate_eq_ok_iff.mpr ⟨_, pass, hloose, rfl⟩, printedLines_finalize_congr _ ?_⟩
  simp only [List.flatMap_append, List.flatMap_cons, hlines, List.append_assoc]

/-- A task, behind which come a disabled block and an entry in the log. -/
def linkedTask : Block :=
  ⟨"t", taskType, true, [], [("DO", ⟨"d", "modbus_log", true, [], [], none⟩)],
    some ⟨"s", "set_modbus_interval", false, [], [],
      some ⟨"l", "modbus_log", true, [], [], none⟩⟩⟩

/-- Between an assignment and another task, the three blocks give the same lines when they are
    left loose. -/
theorem printedLines_linkedTask : ∃ linked loose,
    fourBlanks.generate ⟨[⟨"v", "variables_set", true, [], [], none⟩, linkedTask,
      ⟨"u", taskType, true, [], [], none⟩]⟩ = .ok linked ∧
    fourBlanks.generate ⟨[⟨"v", "variables_set", true, [], [], none⟩,
      ⟨"t", taskType, true, [], [("DO", ⟨"d", "modbus_log", true, [], [], none⟩)], none⟩,
      ⟨"s", "set_modbus_interval", false, [], [], none⟩,
      ⟨"l", "modbus_log", true, [], [], none⟩,
      ⟨"u", taskType, true, [], [], none⟩]⟩ = .ok loose ∧
    Text.printedLines loose.toList = Text.printedLines linked.toList := by
  have hstatement : ∀ spec, fourBlanks.registry.get? linkedTask.type = some spec →
      spec.isValueBlock = false := by
    intro spec hspec
    obtain rfl : Catalog.taskDefinition = spec := Option.some.inj hspec
    rfl
  obtain ⟨linked, hlinked⟩ := exists_script_of_walk
    (w := ⟨[⟨"v", "variables_set", true, [], [], none⟩] ++ linkedTask ::
      [⟨"u", taskType, true, [], [], none⟩]⟩) (by decide +kernel)
  obtain ⟨loose, hloose, hlines⟩ :=
    printedLines_generate_loose (Builder.build_default 4) hstatement hlinked
  exact ⟨linked, loose, hlinked, hloose, hlines⟩

end Generator

end PollScript
