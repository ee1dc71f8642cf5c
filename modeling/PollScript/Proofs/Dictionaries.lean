import Mathlib.Data.List.Induction
import Mathlib.Data.List.Nodup
import PollScript.Dictionary

/-!
# Entries of dictionaries

A look-up finds the value of an entry, and where each key stands once it finds every
entry in whatever order they stand. The sorted form of a list of entries has its keys in
ascending order, and finds under a key what the last entry says. It is the same to sort
before or after a map over the values, and to sort once or twice.

Results:

* `mem_of_get?`, `get?_of_nodup`: which entries a look-up finds.
* `has_iff`: which keys have a value.
* `get?_putAll`: what a look-up finds after entries are put in their order.
* `ascending_sorted`: the keys of a sorted form ascend.
* `get?_sorted`: a look-up finds the last entry of a key.
* `mem_keys_sorted`, `le_of_keys_sorted_eq_cons`: which keys it has, and the first one.
* `sorted_mapValues`: sorting commutes with a map over the values.
* `sorted_of_ascending`: what is in order stays as it is.
* `sorted_of_perm`: what is out of order is put in order.
* `forall₂_of_ascending`: what is related under each key is related entry by entry.
-/

namespace PollScript.Dictionary

variable {α β : Type}

/-! ## Look-ups -/

/-- A value that is found under a key belongs to an entry. -/
theorem mem_of_get? {d : Dictionary α} {key : String} {value : α}
    (h : get? d key = some value) : (key, value) ∈ d := by
  induction d with
  | nil => simp at h
  | cons entry d ih =>
    obtain ⟨k, v⟩ := entry
    rw [get?_cons] at h
    split at h
    · next heq => simp_all
    · exact List.mem_cons_of_mem _ (ih h)

/-- Where no key is repeated, every entry is found by its key. -/
theorem get?_of_nodup {d : Dictionary α} (nodup : (keys d).Nodup) {key : String} {value : α}
    (h : (key, value) ∈ d) : get? d key = some value := by
  induction d with
  | nil => cases h
  | cons entry d ih =>
    obtain ⟨k, v⟩ := entry
    rw [keys, List.map_cons, List.nodup_cons] at nodup
    rw [get?_cons]
    rcases List.mem_cons.mp h with heq | h
    · cases heq; simp
    · have hmem : key ∈ keys d := List.mem_map.mpr ⟨(key, value), h, rfl⟩
      have hne : key ≠ k := fun heq => nodup.1 (heq ▸ hmem)
      rw [if_neg hne]
      exact ih nodup.2 h

theorem mem_put {key : String} {value : α} {d : Dictionary α} {entry : String × α}
    (h : entry ∈ put key value d) : entry = (key, value) ∨ entry ∈ d := by
  induction d with
  | nil => exact .inl (List.mem_singleton.mp h)
  | cons first rest ih =>
    obtain ⟨k, v⟩ := first
    rw [put] at h
    split at h
    · rcases List.mem_cons.mp h with rfl | h
      · exact .inl rfl
      · exact .inr (List.mem_cons_of_mem _ h)
    · rcases List.mem_cons.mp h with rfl | h
      · exact .inr List.mem_cons_self
      · exact (ih h).imp_right (List.mem_cons_of_mem _)

theorem get?_eq_none {d : Dictionary α} {key : String} (h : key ∉ d.keys) :
    get? d key = none :=
  Option.eq_none_iff_forall_ne_some.mpr fun _ hvalue =>
    h (List.mem_map.mpr ⟨_, mem_of_get? hvalue, rfl⟩)

theorem get?_append (d rest : Dictionary α) (key : String) :
    get? (d ++ rest) key = (get? d key).or (get? rest key) :=
  List.lookup_append

/-- A dictionary has the keys of its entries. -/
theorem has_iff {d : Dictionary α} {key : String} : has d key = true ↔ key ∈ d.map (·.1) := by
  induction d with
  | nil => simp [has]
  | cons entry rest ih =>
    obtain ⟨k, v⟩ := entry
    rw [has] at ih
    rw [has, get?_cons, List.map_cons, List.mem_cons, ← ih]
    by_cases heq : key = k
    · simp [heq]
    · simp [heq]

/-- Where each key stands once, the order does not matter to a look-up. -/
theorem get?_reverse {d : Dictionary α} (h : d.keys.Nodup) (key : String) :
    get? d.reverse key = get? d key := by
  induction d with
  | nil => rfl
  | cons head d ih =>
    obtain ⟨hhead, hrest⟩ := List.nodup_cons.mp h
    rw [List.reverse_cons, get?_append, ih hrest, get?_cons, get?_cons]
    by_cases hkey : key = head.1
    · rw [get?_eq_none (hkey ▸ hhead), if_pos hkey, if_pos hkey, Option.none_or]
    · rw [if_neg hkey, if_neg hkey, get?_nil, Option.or_none]

/-! ## Entries that are put one after the other -/

/-- Puts entries in their order. -/
def putAll (entries : List (String × α)) (d : Dictionary α) : Dictionary α :=
  entries.foldl (fun d entry => put entry.1 entry.2 d) d

theorem putAll_append (front back : List (String × α)) (d : Dictionary α) :
    putAll (front ++ back) d = putAll back (putAll front d) :=
  List.foldl_append

/-- The last entry of a key counts, and where there is none, what was there before. -/
theorem get?_putAll (entries : List (String × α)) (d : Dictionary α) (key : String) :
    get? (putAll entries d) key = (get? entries.reverse key).or (get? d key) := by
  induction entries using List.reverseRecOn with
  | nil => rfl
  | append_singleton entries entry ih =>
    rw [putAll_append, List.reverse_concat, get?_cons]
    show get? (put entry.1 entry.2 (putAll entries d)) key = _
    rw [get?_put, ih]
    split <;> rfl

/-! ## The sorted form -/

/-- The keys are in ascending order, each once. -/
def Ascending (d : Dictionary α) : Prop :=
  d.Pairwise fun a b => a.1 < b.1

theorem mem_insertSorted {key : String} {value : α} {d : Dictionary α} {entry : String × α}
    (h : entry ∈ insertSorted key value d) : entry = (key, value) ∨ entry ∈ d := by
  induction d with
  | nil => exact .inl (List.mem_singleton.mp h)
  | cons head d ih =>
    simp only [insertSorted] at h
    split at h
    · exact (List.mem_cons.mp h).imp_right (List.mem_cons_of_mem _)
    · split at h
      · exact List.mem_cons.mp h
      · rcases List.mem_cons.mp h with rfl | h
        · exact .inr List.mem_cons_self
        · exact (ih h).imp_right (List.mem_cons_of_mem _)

/-- An entry that is put in order stands behind the smaller keys and before the greater
    ones. -/
theorem ascending_insertSorted (key : String) (value : α) {d : Dictionary α}
    (h : Ascending d) : Ascending (insertSorted key value d) := by
  induction d with
  | nil => exact List.pairwise_singleton _ _
  | cons head d ih =>
    obtain ⟨hhead, hrest⟩ := List.pairwise_cons.mp h
    simp only [insertSorted]
    split
    · next heq => exact List.pairwise_cons.mpr ⟨fun other hother => heq ▸ hhead other hother, hrest⟩
    · next hne =>
      split
      · next hlt =>
        refine List.pairwise_cons.mpr ⟨fun other hother => ?_, h⟩
        rcases List.mem_cons.mp hother with rfl | hother
        · exact hlt
        · exact String.lt_trans hlt (hhead other hother)
      · next hnlt =>
        refine List.pairwise_cons.mpr ⟨fun other hother => ?_, ih hrest⟩
        rcases mem_insertSorted hother with rfl | hother
        · rcases Classical.em (head.1 < key) with hlt | hge
          · exact hlt
          · exact absurd (String.le_antisymm hge hnlt) hne
        · exact hhead other hother

theorem sorted_concat (entries : List (String × α)) (entry : String × α) :
    sorted (entries ++ [entry]) = insertSorted entry.1 entry.2 (sorted entries) := by
  simp [sorted, List.foldl_append]

theorem ascending_sorted (entries : List (String × α)) : Ascending (sorted entries) := by
  induction entries using List.reverseRecOn with
  | nil => exact List.Pairwise.nil
  | append_singleton entries entry ih =>
    rw [sorted_concat]
    exact ascending_insertSorted _ _ ih

/-- The last entry of a key counts. -/
theorem get?_sorted (entries : List (String × α)) (key : String) :
    get? (sorted entries) key = get? entries.reverse key := by
  induction entries using List.reverseRecOn with
  | nil => rfl
  | append_singleton entries entry ih =>
    rw [sorted_concat, get?_insertSorted, List.reverse_concat, get?_cons, ih]

/-- The sorted form has the keys of the entries. -/
theorem mem_keys_sorted {entries : List (String × α)} {key : String} :
    key ∈ keys (sorted entries) ↔ key ∈ keys entries := by
  have hreverse : key ∈ keys entries.reverse ↔ key ∈ keys entries := by
    rw [keys, List.map_reverse, List.mem_reverse, keys]
  rw [← hreverse, keys, keys, ← has_iff, ← has_iff, has, has, get?_sorted]

/-- The first key of the sorted form is the least. -/
theorem le_of_keys_sorted_eq_cons {entries : List (String × α)} {least : String}
    {rest : List String} (h : keys (sorted entries) = least :: rest) {key : String}
    (hkey : key ∈ keys entries) : least ≤ key := by
  have hascending : (keys (sorted entries)).Pairwise (· < ·) :=
    List.pairwise_map.mpr (ascending_sorted entries)
  rw [← mem_keys_sorted, h] at hkey
  rw [h] at hascending
  rcases List.mem_cons.mp hkey with rfl | hkey
  · exact String.le_refl _
  · exact String.not_lt.mp (String.lt_asymm ((List.pairwise_cons.mp hascending).1 key hkey))

theorem Ascending.nodup {d : Dictionary α} (h : Ascending d) : d.keys.Nodup := by
  refine List.pairwise_map.mpr (List.Pairwise.imp (fun {a b} hlt heq => ?_) h)
  exact String.lt_irrefl b.1 (heq ▸ hlt)

/-- Whether a dictionary is in order is seen from its keys. -/
theorem Ascending.of_keys_eq {d : Dictionary α} {e : Dictionary β} (h : e.Ascending)
    (keys_eq : d.keys = e.keys) : d.Ascending := by
  have hkeys : d.keys.Pairwise (· < ·) := by
    rw [keys_eq]
    exact List.pairwise_map.mpr h
  exact List.pairwise_map.mp hkeys

theorem insertSorted_mapValues (f : α → β) (key : String) (value : α) (d : Dictionary α) :
    insertSorted key (f value) (mapValues f d) = mapValues f (insertSorted key value d) := by
  induction d with
  | nil => rfl
  | cons head d ih =>
    simp only [mapValues, List.map_cons, insertSorted] at ih ⊢
    split
    · rfl
    · split
      · rfl
      · simp [ih]

/-- It is the same to sort entries before or after a map over the values. -/
theorem sorted_mapValues (f : α → β) (entries : List (String × α)) :
    sorted (mapValues f entries) = mapValues f (sorted entries) := by
  induction entries using List.reverseRecOn with
  | nil => rfl
  | append_singleton entries entry ih =>
    have hmap : mapValues f (entries ++ [entry]) =
        mapValues f entries ++ [(entry.1, f entry.2)] := by simp [mapValues]
    rw [hmap, sorted_concat, sorted_concat, ih]
    exact insertSorted_mapValues f entry.1 entry.2 _

theorem insertSorted_eq_concat {key : String} (value : α) {d : Dictionary α}
    (h : ∀ entry ∈ d, entry.1 < key) : insertSorted key value d = d ++ [(key, value)] := by
  induction d with
  | nil => rfl
  | cons head d ih =>
    have hlt : head.1 < key := h _ List.mem_cons_self
    have hne : key ≠ head.1 := fun heq => String.lt_irrefl key (heq ▸ hlt)
    have hrest := ih fun entry hentry => h entry (List.mem_cons_of_mem _ hentry)
    simp [insertSorted, hne, String.lt_asymm hlt, hrest]

theorem sorted_of_ascending {d : Dictionary α} (h : Ascending d) : sorted d = d := by
  induction d using List.reverseRecOn with
  | nil => rfl
  | append_singleton d entry ih =>
    obtain ⟨hd, -, hlast⟩ := List.pairwise_append.mp h
    rw [sorted_concat, ih hd]
    exact insertSorted_eq_concat _ fun other hother => hlast other hother _ List.mem_cons_self

theorem perm_insertSorted {key : String} (value : α) {d : Dictionary α} (h : key ∉ d.keys) :
    (insertSorted key value d).Perm ((key, value) :: d) := by
  induction d with
  | nil => exact .refl _
  | cons head d ih =>
    have hne : key ≠ head.1 := fun heq => h (List.mem_map.mpr ⟨head, by simp, heq.symm⟩)
    have hrest : key ∉ keys d := fun hmem => h (List.mem_cons_of_mem _ hmem)
    simp only [insertSorted, if_neg hne]
    split
    · exact .refl _
    · exact ((ih hrest).cons head).trans (.swap _ _ _)

theorem perm_sorted {entries : List (String × α)} (h : (keys entries).Nodup) :
    (sorted entries).Perm entries := by
  induction entries using List.reverseRecOn with
  | nil => exact .refl _
  | append_singleton entries entry ih =>
    rw [keys, List.map_append, List.nodup_append] at h
    obtain ⟨hentries, -, hlast⟩ := h
    have hnew : entry.1 ∉ keys (sorted entries) := fun hmem =>
      hlast _ (mem_keys_sorted.mp hmem) _ (by simp) rfl
    rw [sorted_concat]
    exact (perm_insertSorted _ hnew).trans (((ih hentries).cons _).trans
      (List.perm_append_singleton _ _).symm)

/-- Sorting puts the entries of a dictionary back in order. -/
theorem sorted_of_perm {d : Dictionary α} (ascending : Ascending d)
    {entries : List (String × α)} (h : entries.Perm d) : sorted entries = d := by
  have nodup : (keys entries).Nodup := (h.map _).nodup_iff.mpr ascending.nodup
  refine List.Perm.eq_of_pairwise ?_ (ascending_sorted entries) ascending
    ((perm_sorted nodup).trans h)
  intro a b _ _ hab hba
  exact absurd hba (String.lt_asymm hab)

theorem notMem_keys_of_lt {key : String} {d : Dictionary α} (h : ∀ entry ∈ d, key < entry.1) :
    key ∉ keys d := by
  intro hmem
  obtain ⟨entry, hentry, rfl⟩ := List.mem_map.mp hmem
  exact String.lt_irrefl _ (h entry hentry)

/-- Dictionaries in ascending order that find related values under each key are related
    entry by entry. -/
theorem forall₂_of_ascending {R : α → β → Prop} {d : Dictionary α} {e : Dictionary β}
    (hd : Ascending d) (he : Ascending e)
    (h : ∀ key, Option.Rel R (get? d key) (get? e key)) :
    List.Forall₂ (fun x y => x.1 = y.1 ∧ R x.2 y.2) d e := by
  induction d generalizing e with
  | nil =>
    cases e with
    | nil => exact .nil
    | cons first e =>
      have hfirst := h first.1
      rw [get?_cons, if_pos rfl] at hfirst
      cases hfirst
  | cons head d ih =>
    obtain ⟨key, value⟩ := head
    obtain ⟨hhead, hrest⟩ := List.pairwise_cons.mp hd
    have hkey := h key
    rw [get?_cons, if_pos rfl] at hkey
    cases e with
    | nil => cases hkey
    | cons first e =>
      obtain ⟨key', value'⟩ := first
      obtain ⟨hfirst, hothers⟩ := List.pairwise_cons.mp he
      -- each of the two keys is the least, so it stands first in both
      obtain rfl : key = key' := by
        by_contra hne
        have hkey' := h key'
        rw [get?_cons, if_neg hne] at hkey
        rw [get?_cons, if_neg (Ne.symm hne), get?_cons, if_pos rfl] at hkey'
        generalize hright : get? e key = right at hkey
        generalize hleft : get? d key' = left at hkey'
        cases hkey
        cases hkey'
        exact String.lt_asymm (hhead _ (mem_of_get? hleft)) (hfirst _ (mem_of_get? hright))
      rw [get?_cons, if_pos rfl] at hkey
      refine .cons ⟨rfl, by cases hkey with | some hvalue => exact hvalue⟩
        (ih hrest hothers fun other => ?_)
      have hother := h other
      rw [get?_cons, get?_cons] at hother
      by_cases heq : other = key
      · subst heq
        rw [get?_eq_none (notMem_keys_of_lt hhead), get?_eq_none (notMem_keys_of_lt hfirst)]
        exact .none
      · rwa [if_neg heq, if_neg heq] at hother

end PollScript.Dictionary
