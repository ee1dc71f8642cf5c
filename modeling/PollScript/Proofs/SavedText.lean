import PollScript.Proofs.Dictionaries
import PollScript.Proofs.JsonGrammar
import PollScript.Workspace.Document

/-!
# The texts of a saved workspace

A saved workspace can be written in many ways. A record is an object with its
members in any order, under any of their names, among members that have no
meaning, or it is the array of its members. What is absent may be left out or
be `null`, and what is empty may be left out. The rest is up to the grammar of
JSON: blanks, and escapes in strings.

Reading depends on none of that. Every text that writes a document is read as
the document, as long as no more than `nestingLimit` containers are inside each
other in the parts that are read.

Results:

* `Shape.Lays.arrange?`: the members of a record are found however it is laid
  out.
* `Value.ofTree?_of_writtenAs`: a stored value is read however it is written.
* `Block.ofTree?_of_writtenAs`: so is a block.
* `Document.read_of_writtenIn`: so is a document.
-/

namespace PollScript.Json

/-! ## Parts of a record as written -/

variable {α : Type}

/-- A member that is there. -/
inductive Required (writes : α → Tree → Prop) : α → Option Tree → Prop where
  | written {a : α} {t : Tree} (h : writes a t) : Required writes a (some t)

/-- A member that may be absent. -/
inductive Optional (writes : α → Tree → Prop) : Option α → Option Tree → Prop where
  | leftOut : Optional writes none none
  | null : Optional writes none (some (.scalar .null))
  | written {a : α} {t : Tree} (h : writes a t) : Optional writes (some a) (some t)

/-- A member with a default. -/
inductive Defaulted (default : α) (writes : α → Tree → Prop) : α → Option Tree → Prop where
  | leftOut : Defaulted default writes default none
  | written {a : α} {t : Tree} (h : writes a t) : Defaulted default writes a (some t)

/-- Written as a container, of which one more is open in its parts. -/
def Inside (writes : Nat → α → Tree → Prop) : Nat → α → Tree → Prop
  | 0, _, _ => False
  | n + 1, a, t => writes n a t

/-- The object with the members, of which each key has a text. -/
def Tree.ofMembers (members : List (String × Tree)) : Tree :=
  .object (members.map fun member => (some member.1, member.2))

/-- The number is the whole number, in plain digits. -/
structure Number.Denotes (m : Number) (i : Int) : Prop where
  fraction : m.numeral.fraction = none
  exponent : m.numeral.exponent = none
  /-- It has a minus if it is negative, so zero has none. -/
  sign : m.negative = decide (i < 0)
  digits : Nat.ofDigitChars 10 m.numeral.whole 0 = i.natAbs

/-- A text is written as a string. -/
def TextAs (s : String) (t : Tree) : Prop :=
  t = .scalar (.text (some s))

/-- A truth value is written as its name. -/
def BoolAs (b : Bool) (t : Tree) : Prop :=
  t = .scalar (.bool b)

/-- A version is written in plain digits. -/
def WordAs (w : UInt32) (t : Tree) : Prop :=
  ∃ m : Number, m.Denotes w.toNat ∧ t = .scalar (.number m)

/-- A list is written as an array. -/
inductive ListAs (writes : α → Tree → Prop) : List α → Tree → Prop where
  | items {as : List α} {ts : List Tree} (h : List.Forall₂ writes as ts) :
      ListAs writes as (.array ts)

/-- A dictionary is written as an object. -/
inductive DictionaryAs (writes : α → Tree → Prop) : Dictionary α → Tree → Prop where
  /-- The entries in any order. -/
  | members {d : Dictionary α} {entries : List (String × α)} {ts : List (String × Tree)}
      (ascending : d.Ascending) (order : entries.Perm d)
      (h : List.Forall₂ (fun entry member => entry.1 = member.1 ∧ writes entry.2 member.2)
        entries ts) :
      DictionaryAs writes d (Tree.ofMembers ts)

/-- A stored value, with at most so many containers inside each other. Numbers
    are whole and fit 64 bits, with or without a sign. -/
def Value.WrittenAs : Nat → Value → Tree → Prop
  | _, .null, t => t = .scalar .null
  | _, .bool b, t => BoolAs b t
  | _, .int i, t => (Int64.minValue.toInt ≤ i ∧ i < UInt64.size) ∧
      ∃ m : Number, m.Denotes i ∧ t = .scalar (.number m)
  | _, .float _, _ => False
  | _, .text s, t => TextAs s t
  | 0, .array _, _ => False
  | n + 1, .array items, t => ListAs (Value.WrittenAs n) items t
  | 0, .object _, _ => False
  | n + 1, .object members, t => DictionaryAs (Value.WrittenAs n) members t

/-! ## Records as written -/

/-- The members of a record that are there, each under one of its names. -/
inductive Chosen : List (List String) → List (Option Tree) → List (String × Tree) → Prop where
  | nil : Chosen [] [] []
  | leftOut {names : List String} {shape : List (List String)} {parts : List (Option Tree)}
      {members : List (String × Tree)} (rest : Chosen shape parts members) :
      Chosen (names :: shape) (none :: parts) members
  | written {names : List String} {shape : List (List String)} {parts : List (Option Tree)}
      {members : List (String × Tree)} {name : String} {t : Tree} (h : name ∈ names)
      (rest : Chosen shape parts members) :
      Chosen (names :: shape) (some t :: parts) ((name, t) :: members)

/-- A record with its members, those that are left out included. -/
inductive Shape.Lays (shape : Shape) : List (Option Tree) → Tree → Prop where
  /-- An object with the members in any order, among members that the shape does
      not name. -/
  | object {parts : List (Option Tree)} {known unknown members : List (String × Tree)}
      (h : Chosen shape.members parts known)
      (other : ∀ member ∈ unknown, ∀ names ∈ shape.members, member.1 ∉ names)
      (order : members.Perm (known ++ unknown)) : Lays shape parts (Tree.ofMembers members)
  | array {items : List Tree} (all : items.length = shape.members.length) :
      Lays shape (items.map some) (.array items)

/-! ## Reading the parts of a record -/

section

variable {writes : α → Tree → Prop} {read : Tree → Option α}

theorem Required.required? (reads : ∀ a t, writes a t → read t = some a) {a : α}
    {member : Option Tree} (h : Required writes a member) :
    Json.required? read member = some a := by
  cases h with
  | written h => exact reads _ _ h

theorem Optional.optional? (reads : ∀ a t, writes a t → read t = some a)
    (apart : ∀ a, ¬ writes a (.scalar .null)) {a : Option α} {member : Option Tree}
    (h : Optional writes a member) : Json.optional? read member = some a := by
  cases h with
  | leftOut => rfl
  | null => rfl
  | @written a t h =>
    unfold Json.optional?
    split
    · next heq => cases heq
    · next heq => cases heq; exact absurd h (apart a)
    · next heq => cases heq; rw [reads _ _ h]; rfl

theorem Defaulted.defaulted? (reads : ∀ a t, writes a t → read t = some a) {default a : α}
    {member : Option Tree} (h : Defaulted default writes a member) :
    Json.defaulted? default read member = some a := by
  cases h with
  | leftOut => rfl
  | written h => exact reads _ _ h

theorem Inside.within {writes : Nat → α → Tree → Prop} {read : Nat → Tree → Option α}
    (reads : ∀ n a t, writes n a t → read n t = some a) {n : Nat} {a : α} {t : Tree}
    (h : Inside writes n a t) : Json.within n read t = some a := by
  cases n with
  | zero => cases h
  | succ n => exact reads n a t h

theorem mapM_of_forall₂ {β γ : Type} {R : β → γ → Prop} {f : γ → Option β} {bs : List β}
    {cs : List γ} (h : List.Forall₂ R bs cs) (reads : ∀ b c, R b c → f c = some b) :
    cs.mapM f = some bs := by
  induction h with
  | nil => rfl
  | cons hbc _ ih => simp [List.mapM_cons, reads _ _ hbc, ih]

theorem ListAs.list? (reads : ∀ a t, writes a t → read t = some a) {as : List α} {t : Tree}
    (h : ListAs writes as t) : Json.list? read t = some as := by
  cases h with
  | items h => exact mapM_of_forall₂ h reads

theorem keyed?_members (members : List (String × Tree)) :
    keyed? (members.map fun member => (some member.1, member.2)) = some members := by
  induction members with
  | nil => rfl
  | cons member members ih =>
    rw [keyed?] at ih ⊢
    simp [List.mapM_cons, ih]

/-- The entries of a dictionary are read, and put in order. -/
theorem DictionaryAs.entries (reads : ∀ a t, writes a t → read t = some a) {d : Dictionary α}
    {t : Tree} (h : DictionaryAs writes d t) :
    ∃ members entries, t = Tree.ofMembers members ∧
      members.mapM (fun member => (read member.2).map (member.1, ·)) = some entries ∧
      Dictionary.sorted entries = d := by
  cases h with
  | members ascending order h =>
    refine ⟨_, _, rfl, mapM_of_forall₂ h ?_, Dictionary.sorted_of_perm ascending order⟩
    rintro ⟨key, value⟩ member ⟨hkey, hvalue⟩
    simp only at hkey hvalue
    simp [reads _ _ hvalue, hkey]

theorem DictionaryAs.dictionary? (reads : ∀ a t, writes a t → read t = some a)
    {d : Dictionary α} {t : Tree} (h : DictionaryAs writes d t) :
    Json.dictionary? read t = some d := by
  obtain ⟨members, entries, rfl, hentries, hsorted⟩ := h.entries reads
  simp [Json.dictionary?, Tree.ofMembers, keyed?_members, hentries, hsorted]

end

theorem TextAs.text? {s : String} {t : Tree} (h : TextAs s t) : Json.text? t = some s := by
  rw [h, Json.text?]

theorem BoolAs.bool? {b : Bool} {t : Tree} (h : BoolAs b t) : Json.bool? t = some b := by
  rw [h, Json.bool?]

/-- A whole number in plain digits is read as such. -/
theorem Number.Denotes.asInt? {m : Number} {i : Int} (h : m.Denotes i) : m.asInt? = some i := by
  have integer : m.numeral.isInteger = true := by
    simp [Decimal.Numeral.isInteger, h.fraction, h.exponent]
  have coefficient : m.numeral.coefficient = i.natAbs := by
    simp [Decimal.Numeral.coefficient, h.fraction, h.digits]
  unfold Number.asInt?
  rw [if_pos integer, coefficient, h.sign]
  by_cases hneg : i < 0
  · have nonzero : i.natAbs ≠ 0 := by omega
    simp only [hneg, decide_true, if_true, if_neg nonzero]
    congr 1
    omega
  · simp only [hneg, decide_false, Bool.false_eq_true, if_false]
    congr 1
    omega

theorem WordAs.word32? {w : UInt32} {t : Tree} (h : WordAs w t) : Json.word32? t = some w := by
  obtain ⟨m, hdenotes, rfl⟩ := h
  have bound : w.toNat < UInt32.size := w.toNat_lt
  simp [Json.word32?, hdenotes.asInt?, bound]

theorem Number.Denotes.value? {m : Number} {i : Int} (h : m.Denotes i)
    (least : Int64.minValue.toInt ≤ i) (greatest : i < UInt64.size) :
    m.value? = some (.int i) := by
  have fits : fitsWord i = true := by
    have bound : Int64.minValue.toInt = -((UInt64.size / 2 : Nat) : Int) := by decide
    rw [bound] at least
    simp only [fitsWord, least, greatest, decide_true, Bool.and_self]
  simp [Number.value?, h.asInt?, fits]

/-- A stored value is read however it is written. -/
theorem Value.ofTree?_of_writtenAs :
    ∀ (n : Nat) (v : Value) (t : Tree), v.WrittenAs n t → Value.ofTree? n t = some v
  | n, .null, t, h => by
    rw [Value.WrittenAs] at h
    rw [h, Value.ofTree?]
    rfl
  | n, .bool b, t, h => by
    rw [Value.WrittenAs] at h
    rw [h, Value.ofTree?]
    rfl
  | n, .int i, t, h => by
    rw [Value.WrittenAs] at h
    obtain ⟨⟨least, greatest⟩, m, hdenotes, rfl⟩ := h
    rw [Value.ofTree?]
    exact hdenotes.value? least greatest
  | n, .float x, t, h => by
    rw [Value.WrittenAs] at h
    exact h.elim
  | n, .text s, t, h => by
    rw [Value.WrittenAs] at h
    rw [h, Value.ofTree?]
    rfl
  | 0, .array items, t, h => by
    rw [Value.WrittenAs] at h
    exact h.elim
  | n + 1, .array items, t, h => by
    rw [Value.WrittenAs] at h
    cases h with
    | items h =>
      rw [Value.ofTree?, mapM_of_forall₂ h (Value.ofTree?_of_writtenAs n)]
      rfl
  | 0, .object members, t, h => by
    rw [Value.WrittenAs] at h
    exact h.elim
  | n + 1, .object members, t, h => by
    rw [Value.WrittenAs] at h
    obtain ⟨members, entries, rfl, hentries, hsorted⟩ := h.entries (Value.ofTree?_of_writtenAs n)
    rw [Tree.ofMembers, Value.ofTree?, keyed?_members]
    simp [hentries, Value.ofMembers, hsorted]

/-! ## Reading records -/

theorem Chosen.names {shape : List (List String)} {parts : List (Option Tree)}
    {known : List (String × Tree)} (h : Chosen shape parts known) :
    ∀ member ∈ known, member.1 ∈ shape.flatten := by
  induction h with
  | nil => nofun
  | leftOut _ ih =>
    intro member hmember
    rw [List.flatten_cons]
    exact List.mem_append_right _ (ih member hmember)
  | written h _ ih =>
    intro member hmember
    rw [List.flatten_cons]
    rcases List.mem_cons.mp hmember with rfl | hmember
    · exact List.mem_append_left _ h
    · exact List.mem_append_right _ (ih member hmember)

theorem filter_eq_nil {names : List String} {members : List (String × Tree)}
    (h : ∀ member ∈ members, member.1 ∉ names) :
    members.filter (fun member => names.contains member.1) = [] := by
  rw [List.filter_eq_nil_iff]
  intro member hmember
  simpa using h member hmember

theorem one?_leftOut {names : List String} {members : List (String × Tree)}
    (h : ∀ member ∈ members, member.1 ∉ names) : one? names members = some none := by
  rw [one?, filter_eq_nil h]

theorem one?_written {names : List String} {name : String} {t : Tree}
    {members rest : List (String × Tree)} (hname : name ∈ names)
    (h : ∀ member ∈ rest, member.1 ∉ names) (order : members.Perm ((name, t) :: rest)) :
    one? names members = some (some t) := by
  have found : members.filter (fun member => names.contains member.1) = [(name, t)] := by
    have same := order.filter fun member => names.contains member.1
    rw [List.filter_cons_of_pos (by simpa using hname), filter_eq_nil h] at same
    exact List.perm_singleton.mp same
  rw [one?, found]

/-- The members of a record are found among all that an object has, if no two of
    them share a name. The induction is on the shape. What is found moves to the
    other members, which have no name in the rest of the shape. -/
theorem Chosen.mapM_one? {shape : List (List String)} {parts : List (Option Tree)}
    {known others members : List (String × Tree)} (h : Chosen shape parts known)
    (distinct : shape.flatten.Nodup) (apart : ∀ member ∈ others, member.1 ∉ shape.flatten)
    (order : members.Perm (known ++ others)) :
    shape.mapM (Json.one? · members) = some parts := by
  induction h generalizing others with
  | nil => rfl
  | @leftOut names shape parts known rest ih =>
    rw [List.flatten_cons, List.nodup_append] at distinct
    obtain ⟨-, hshape, hdisjoint⟩ := distinct
    simp only [List.flatten_cons, List.mem_append, not_or] at apart
    have none : ∀ member ∈ members, member.1 ∉ names := by
      intro member hmember hname
      rcases List.mem_append.mp (order.mem_iff.mp hmember) with hknown | hother
      · exact hdisjoint _ hname _ (rest.names member hknown) rfl
      · exact (apart member hother).1 hname
    rw [List.mapM_cons, one?_leftOut none, ih hshape (fun m hm => (apart m hm).2) order]
    rfl
  | @written names shape parts known name t hname rest ih =>
    rw [List.flatten_cons, List.nodup_append] at distinct
    obtain ⟨-, hshape, hdisjoint⟩ := distinct
    simp only [List.flatten_cons, List.mem_append, not_or] at apart
    have other : ∀ member ∈ known ++ others, member.1 ∉ names := by
      intro member hmember hname
      rcases List.mem_append.mp hmember with hknown | hother
      · exact hdisjoint _ hname _ (rest.names member hknown) rfl
      · exact (apart member hother).1 hname
    have moved : ∀ member ∈ (name, t) :: others, member.1 ∉ shape.flatten := by
      intro member hmember
      rcases List.mem_cons.mp hmember with rfl | hmember
      · exact fun hmem => hdisjoint _ hname _ hmem rfl
      · exact (apart member hmember).2
    rw [List.mapM_cons, one?_written hname other order,
      ih hshape moved (order.trans List.perm_middle.symm)]
    rfl

/-- The shape of a record that can be an object or an array of all members: no two
    members share a name. -/
structure Shape.Proper (shape : Shape) : Prop where
  distinct : shape.members.flatten.Nodup
  least : shape.least ≤ shape.members.length

/-- The members of a record are found however it is laid out. -/
theorem Shape.Lays.arrange? {shape : Shape} (proper : shape.Proper)
    {parts : List (Option Tree)} {t : Tree} (h : shape.Lays parts t) :
    shape.arrange? t = some parts := by
  cases h with
  | @object parts known unknown members h other order =>
    have apart : ∀ member ∈ unknown, member.1 ∉ shape.members.flatten := by
      intro member hmember hname
      obtain ⟨names, hnames, hmem⟩ := List.mem_flatten.mp hname
      exact other member hmember names hnames hmem
    simp only [Tree.ofMembers, Shape.arrange?, keyed?_members]
    exact h.mapM_one? proper.distinct apart order
  | array all =>
    have long := proper.least
    rw [Shape.arrange?, if_pos (by omega), all, Nat.sub_self]
    simp

/-! ## Spelling without escapes -/

theorem blanks_nil : Blanks [] := nofun

theorem blanks_space : Blanks [' '] := by
  intro c hc
  exact .inl (List.mem_singleton.mp hc)

/-- A text that needs no escapes may be written as it stands. -/
theorem quoted_plain {s : String}
    (h : ∀ c ∈ s.toList, c ≠ '"' ∧ c ≠ '\\' ∧ 0x20 ≤ c.toNat) :
    Quoted (some s) ('"' :: s.toList ++ ['"']) := by
  have plain : ∀ cs : List Char, (∀ c ∈ cs, c ≠ '"' ∧ c ≠ '\\' ∧ 0x20 ≤ c.toNat) →
      Means (cs.map .char) cs ∧ Pieces (cs.map .char) cs := by
    intro cs hcs
    induction cs with
    | nil => exact ⟨.nil, .nil⟩
    | cons c cs ih =>
      obtain ⟨quote, backslash, control⟩ := hcs c List.mem_cons_self
      obtain ⟨means, pieces⟩ := ih fun d hd => hcs d (List.mem_cons_of_mem _ hd)
      exact ⟨.char c means, .cons (.plain quote backslash control) pieces⟩
  exact ⟨_, _, (plain _ h).1, (plain _ h).2, rfl⟩

/-- A value behind a space. -/
theorem Tree.Written.spaced {t : Tree} {cs : List Char} (h : Tree.Written t cs) :
    Tree.Surrounded t ([' '] ++ cs ++ []) :=
  .blanks blanks_space h blanks_nil

theorem Tree.Written.alone {t : Tree} {cs : List Char} (h : Tree.Written t cs) :
    Tree.Surrounded t ([] ++ cs ++ []) :=
  .blanks blanks_nil h blanks_nil

theorem Tree.Surrounded.of_eq {t : Tree} {cs ds : List Char} (h : Tree.Surrounded t cs)
    (same : ds = cs) : Tree.Surrounded t ds :=
  same ▸ h

/-- A member whose key needs no escapes. -/
theorem Tree.Surrounded.member {t : Tree} {cs : List Char} (h : Tree.Surrounded t cs) (key : String)
    (plain : ∀ c ∈ key.toList, c ≠ '"' ∧ c ≠ '\\' ∧ 0x20 ≤ c.toNat := by simp) :
    Tree.WrittenMember (some key, t) ([] ++ ('"' :: key.toList ++ ['"']) ++ [] ++ ':' :: cs) :=
  .colon blanks_nil (quoted_plain plain) blanks_nil h

end PollScript.Json

namespace PollScript.Saved

open Json

/-! ## Documents as written -/

mutual

/-- A block, with at most so many containers inside each other. -/
def Block.WrittenAs : Nat → Block → Tree → Prop
  | 0, _, _ => False
  | n + 1, b, t => ∃ type id enabled reasons fields inputs next,
      blockShape.Lays [type, id, enabled, reasons, fields, inputs, next] t ∧
      Required TextAs b.type type ∧
      Optional TextAs b.id id ∧
      Optional BoolAs b.enabled enabled ∧
      Defaulted [] (Inside (fun _ => ListAs TextAs) n) b.disabledReasons reasons ∧
      Defaulted [] (Inside (fun n => DictionaryAs (Value.WrittenAs n)) n) b.fields fields ∧
      Defaulted [] (Block.InputsAs n) b.inputs inputs ∧
      Optional (Connection.WrittenAs n) b.next next

/-- The inputs of a block. -/
def Block.InputsAs : Nat → List (String × Connection Block) → Tree → Prop
  | 0, _, _ => False
  | n + 1, inputs, t => DictionaryAs (Connection.WrittenAs n) inputs t

/-- A connection. -/
def Connection.WrittenAs : Nat → Connection Block → Tree → Prop
  | 0, _, _ => False
  | n + 1, c, t => ∃ block shadow,
      connectionShape.Lays [block, shadow] t ∧
      Optional (Block.WrittenAs n) c.block block ∧
      Optional (Block.WrittenAs n) c.shadow shadow

end

/-- A variable. -/
def Variable.WrittenAs (v : Variable) (t : Tree) : Prop :=
  ∃ name id type,
    variableShape.Lays [name, id, type] t ∧
    Required TextAs v.name name ∧
    Required TextAs v.id id ∧
    Optional TextAs v.type type

/-- The version of the format and the top-level blocks. -/
def BlockListAs (n : Nat) (list : UInt32 × List Block) (t : Tree) : Prop :=
  ∃ version blocks,
    blockListShape.Lays [version, blocks] t ∧
    Defaulted 0 WordAs list.1 version ∧
    Defaulted [] (Inside (fun n => ListAs (Block.WrittenAs n)) n) list.2 blocks

/-- A document. -/
def Document.WrittenAs (n : Nat) (d : Document) (t : Tree) : Prop :=
  ∃ blocks scope,
    documentShape.Lays [blocks, scope] t ∧
    Defaulted (0, []) (Inside BlockListAs n) (d.languageVersion, d.blocks) blocks ∧
    Defaulted [] (Inside (fun n => ListAs (Inside (fun _ => Variable.WrittenAs) n)) n)
      d.scope scope

/-- The text writes the document, with at most `nestingLimit` containers inside
    each other in the parts that are read. -/
def Document.WrittenIn (d : Document) (text : String) : Prop :=
  ∃ t, Tree.Surrounded t text.toList ∧ Inside Document.WrittenAs nestingLimit d t

/-! ## Reading documents -/

theorem proper_shapes :
    blockShape.Proper ∧ connectionShape.Proper ∧ variableShape.Proper ∧
      blockListShape.Proper ∧ documentShape.Proper := by
  refine ⟨⟨?_, ?_⟩, ⟨?_, ?_⟩, ⟨?_, ?_⟩, ⟨?_, ?_⟩, ⟨?_, ?_⟩⟩ <;> decide

theorem not_textAs_null (s : String) : ¬ TextAs s (.scalar .null) :=
  nofun

theorem not_boolAs_null (b : Bool) : ¬ BoolAs b (.scalar .null) :=
  nofun

theorem Shape.not_lays_scalar (shape : Shape) (parts : List (Option Tree)) (s : Scalar) :
    ¬ shape.Lays parts (.scalar s) :=
  nofun

theorem Block.not_writtenAs_null (n : Nat) (b : Block) : ¬ b.WrittenAs n (.scalar .null) := by
  cases n with
  | zero => exact False.elim
  | succ n =>
    rintro ⟨_, _, _, _, _, _, _, hlays, -⟩
    exact Shape.not_lays_scalar _ _ _ hlays

theorem Connection.not_writtenAs_null (n : Nat) (c : Connection Block) :
    ¬ c.WrittenAs n (.scalar .null) := by
  cases n with
  | zero => exact False.elim
  | succ n =>
    rintro ⟨_, _, hlays, -⟩
    exact Shape.not_lays_scalar _ _ _ hlays

/-- Blocks, inputs and connections are read however they are written. The induction
    is on how many containers may still be opened. -/
theorem ofTree?_of_writtenAs (n : Nat) :
    (∀ b t, Block.WrittenAs n b t → Block.ofTree? n t = some b) ∧
      (∀ inputs t, Block.InputsAs n inputs t → Block.inputsOfTree? n t = some inputs) ∧
      ∀ c t, Connection.WrittenAs n c t → Connection.ofTree? n t = some c := by
  induction n with
  | zero => exact ⟨fun _ _ h => h.elim, fun _ _ h => h.elim, fun _ _ h => h.elim⟩
  | succ n ih =>
    obtain ⟨readsBlock, readsInputs, readsConnection⟩ := ih
    refine ⟨fun b t h => ?_, fun inputs t h => ?_, fun c t h => ?_⟩
    · obtain ⟨type, id, enabled, reasons, fields, inputs, next, hlays, htype, hid, henabled,
        hreasons, hfields, hinputs, hnext⟩ := h
      have htype := htype.required? fun _ _ h => h.text?
      have hid := hid.optional? (fun _ _ h => h.text?) not_textAs_null
      have henabled := henabled.optional? (fun _ _ h => h.bool?) not_boolAs_null
      have hreasons := hreasons.defaulted? fun _ _ h =>
        h.within fun _ _ _ h => h.list? fun _ _ h => h.text?
      have hfields := hfields.defaulted? fun _ _ h =>
        h.within fun n _ _ h => h.dictionary? (Value.ofTree?_of_writtenAs n)
      have hinputs := hinputs.defaulted? readsInputs
      have hnext := hnext.optional? readsConnection (Connection.not_writtenAs_null n)
      rw [Block.ofTree?, hlays.arrange? proper_shapes.1]
      simp only [htype, hid, henabled, hreasons, hfields, hinputs, hnext, Option.bind_eq_bind,
        Option.bind_some, Option.pure_def, Option.some.injEq]
      cases b
      rfl
    · exact h.dictionary? readsConnection
    · obtain ⟨block, shadow, hlays, hblock, hshadow⟩ := h
      have hblock := hblock.optional? readsBlock (Block.not_writtenAs_null n)
      have hshadow := hshadow.optional? readsBlock (Block.not_writtenAs_null n)
      rw [Connection.ofTree?, hlays.arrange? proper_shapes.2.1]
      simp [hblock, hshadow]

/-- A block is read however it is written. -/
theorem Block.ofTree?_of_writtenAs {n : Nat} {b : Block} {t : Tree} (h : b.WrittenAs n t) :
    Block.ofTree? n t = some b :=
  (Saved.ofTree?_of_writtenAs n).1 b t h

theorem Variable.ofTree?_of_writtenAs {v : Variable} {t : Tree} (h : v.WrittenAs t) :
    Variable.ofTree? t = some v := by
  obtain ⟨name, id, type, hlays, hname, hid, htype⟩ := h
  have hname := hname.required? fun _ _ h => h.text?
  have hid := hid.required? fun _ _ h => h.text?
  have htype := htype.optional? (fun _ _ h => h.text?) not_textAs_null
  rw [Variable.ofTree?, hlays.arrange? proper_shapes.2.2.1]
  simp [hname, hid, htype]

theorem blockListOfTree?_of_blockListAs {n : Nat} {list : UInt32 × List Block} {t : Tree}
    (h : BlockListAs n list t) : blockListOfTree? n t = some list := by
  obtain ⟨version, blocks, hlays, hversion, hblocks⟩ := h
  have hversion := hversion.defaulted? fun _ _ h => h.word32?
  have hblocks := hblocks.defaulted? fun _ _ h =>
    h.within fun _ _ _ h => h.list? fun _ _ h => Block.ofTree?_of_writtenAs h
  rw [blockListOfTree?, hlays.arrange? proper_shapes.2.2.2.1]
  simp [hversion, hblocks]

theorem Document.ofTree?_of_writtenAs {n : Nat} {d : Document} {t : Tree}
    (h : d.WrittenAs n t) : Document.ofTree? n t = some d := by
  obtain ⟨blocks, scope, hlays, hblocks, hscope⟩ := h
  have hblocks := hblocks.defaulted? fun _ _ h =>
    h.within fun _ _ _ h => blockListOfTree?_of_blockListAs h
  have hscope := hscope.defaulted? fun _ _ h =>
    h.within fun _ _ _ h => h.list? fun _ _ h =>
      h.within fun _ _ _ h => Variable.ofTree?_of_writtenAs h
  rw [Document.ofTree?, hlays.arrange? proper_shapes.2.2.2.2]
  simp [hblocks, hscope]

/-- Every text that writes a document is read as exactly that document, whatever the
    writer chose: the order and the names of members, members that are left out or
    `null`, members without a meaning, records as arrays, blanks and escapes. -/
theorem Document.read_of_writtenIn {d : Document} {text : String} (h : d.WrittenIn text) :
    Document.read text = .ok d := by
  obtain ⟨t, hspells, hwrites⟩ := h
  have hread := hwrites.within fun _ _ _ h => Document.ofTree?_of_writtenAs h
  rw [Document.read, Tree.read?_of_spelled hspells, Option.bind_some, hread]

/-! ## A text that is read -/

/-- A block with a field. -/
def sample : Document where
  languageVersion := 1
  blocks := [⟨"text", none, none, [], [("N", .int (-7))], [], none⟩]
  scope := []

/-- A text for the block, with members out of order, a member without a meaning,
    records as arrays and an escape. -/
def sampleText : String :=
  "\x7b\"variables\":[],\"ui\": [],\"blocks\":[1,[[\"te\\u0078t\",null,null,[]," ++
    "\x7b\"N\":-7\x7d,\x7b\x7d,null]]]\x7d"

/-- The tree of the field values. -/
def sampleFields : Tree :=
  Tree.ofMembers [("N", .scalar (.number ⟨true, ⟨['7'], none, none⟩⟩))]

/-- The tree of the block. -/
def sampleBlock : Tree :=
  .array [.scalar (.text (some "text")), .scalar .null, .scalar .null, .array [], sampleFields,
    Tree.ofMembers [], .scalar .null]

/-- The tree of the version and the top-level blocks. -/
def sampleBlocks : Tree :=
  .array [.scalar (.number ⟨false, ⟨['1'], none, none⟩⟩), .array [sampleBlock]]

/-- The tree of the text. -/
def sampleTree : Tree :=
  Tree.ofMembers [("variables", .array []), ("ui", .array []), ("blocks", sampleBlocks)]

theorem spells_sample : Tree.Surrounded sampleTree sampleText.toList := by
  have plain {c : Char} (h : c ≠ '"' ∧ c ≠ '\\' ∧ 0x20 ≤ c.toNat) : Piece (.char c) [c] :=
    .plain h.1 h.2.1 h.2.2
  have x : Piece (.unit 'x'.toNat) "\\u0078".toList :=
    .unit (p := 0) (q := 0) (r := 7) (s := 8) (.inl rfl) (.inl rfl) (.inl rfl) (.inl rfl)
  have type : Tree.Written (.scalar (.text (some "text"))) _ := .scalar (.text ⟨_, _,
    .char 't' (.char 'e' (.unit 'x' (by decide) (.char 't' .nil))),
    .cons (plain (by decide)) (.cons (plain (by decide)) (.cons x
      (.cons (plain (by decide)) .nil))), rfl⟩)
  have seven : Number.Written ⟨true, ⟨['7'], none, none⟩⟩ _ :=
    .parts (by decide) (.inr (by decide)) .absent .absent
  have one : Number.Written ⟨false, ⟨['1'], none, none⟩⟩ _ :=
    .parts (by decide) (.inr (by decide)) .absent .absent
  have null := (Tree.Written.scalar .null).alone
  have list := Tree.Written.emptyArray blanks_nil
  have fields : Tree.Written sampleFields _ :=
    .object (.last ((Tree.Written.scalar (.number seven)).alone.member "N"))
  have block : Tree.Written sampleBlock _ := .array (.cons type.alone (.cons null (.cons null
    (.cons list.alone (.cons fields.alone
      (.cons (Tree.Written.emptyObject blanks_nil).alone (.last null)))))))
  have blocks : Tree.Written sampleBlocks _ :=
    .array (.cons (Tree.Written.scalar (.number one)).alone
      (.last (Tree.Written.array (.last block.alone)).alone))
  have document : Tree.Written sampleTree _ := .object (.cons (list.alone.member "variables")
    (.cons (list.spaced.member "ui") (.last (blocks.alone.member "blocks"))))
  exact document.alone.of_eq (by decide +kernel)

theorem writtenAs_sample : Inside Document.WrittenAs nestingLimit sample sampleTree := by
  have fields : DictionaryAs (Value.WrittenAs 122) [("N", .int (-7))] sampleFields :=
    .members (List.pairwise_singleton _ _) (.refl _)
      (.cons ⟨rfl, ⟨by decide, by decide⟩, _, ⟨rfl, rfl, rfl, rfl⟩, rfl⟩ .nil)
  have block : Block.WrittenAs 124 ⟨"text", none, none, [], [("N", .int (-7))], [], none⟩
      sampleBlock :=
    have array : blockShape.Lays _ sampleBlock := .array rfl
    ⟨_, _, _, _, _, _, _, array, .written rfl, .null, .null, .written (.items .nil),
      .written fields, .written (.members .nil (.refl _) .nil), .null⟩
  have blocks : BlockListAs 125 (1, sample.blocks) sampleBlocks :=
    have array : blockListShape.Lays _ sampleBlocks := .array rfl
    ⟨_, _, array, .written ⟨_, ⟨rfl, rfl, rfl, rfl⟩, rfl⟩,
      .written (.items (.cons block .nil))⟩
  have known : Chosen documentShape.members [some sampleBlocks, some (.array [])]
      [("blocks", sampleBlocks), ("variables", .array [])] :=
    .written (by decide) (.written (by decide) .nil)
  have unknown : ∀ member ∈ [("ui", Tree.array [])], ∀ names ∈ documentShape.members,
      member.1 ∉ names := by
    simp [documentShape]
  refine ⟨_, _, .object known unknown ?_, .written blocks, .written (.items .nil)⟩
  exact (List.reverse_perm _).symm.trans (.cons _ (.swap _ _ []))

/-- The text is read as the document. -/
theorem Document.read_of_writtenIn_sample :
    sample.WrittenIn sampleText ∧ Document.read sampleText = .ok sample := by
  have written : sample.WrittenIn sampleText := ⟨sampleTree, spells_sample, writtenAs_sample⟩
  exact ⟨written, Document.read_of_writtenIn written⟩

end PollScript.Saved
