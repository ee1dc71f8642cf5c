/-!
# Dictionaries

Texts keyed by texts: the fields and inputs of a block, the members of a JSON
object, the emitters of a generator. A dictionary is a list of entries in which
the first entry of a key counts. The sorted form has its keys in ascending
order of code points and each key once.

Results:

* `get?_put`: what a look-up finds after an entry is put.
* `get?_insertSorted`: the same for the sorted form.
* `get?_mapValues`: a look-up commutes with a map over the values.
-/

namespace PollScript

/-- Entries keyed by text, of which the first with a key counts. -/
abbrev Dictionary (α : Type) := List (String × α)

namespace Dictionary

variable {α β : Type}

def get? (d : Dictionary α) (key : String) : Option α :=
  d.lookup key

def has (d : Dictionary α) (key : String) : Bool :=
  (d.get? key).isSome

def keys (d : Dictionary α) : List String :=
  d.map (·.1)

/-- Replaces the value of a key in its place, or adds the entry at the end. -/
def put (key : String) (value : α) : Dictionary α → Dictionary α
  | [] => [(key, value)]
  | (k, v) :: rest => if key = k then (key, value) :: rest else (k, v) :: put key value rest

/-- Puts an entry where its key belongs in ascending order, replacing an entry
    of the same key. -/
def insertSorted (key : String) (value : α) : Dictionary α → Dictionary α
  | [] => [(key, value)]
  | (k, v) :: rest =>
    if key = k then (key, value) :: rest
    else if key < k then (key, value) :: (k, v) :: rest
    else (k, v) :: insertSorted key value rest

/-- The sorted form of a list of entries, in which the last entry of a key
    counts. -/
def sorted (entries : List (String × α)) : Dictionary α :=
  entries.foldl (fun d entry => insertSorted entry.1 entry.2 d) []

/-- The same keys with mapped values. -/
def mapValues (f : α → β) (d : Dictionary α) : Dictionary β :=
  d.map fun entry => (entry.1, f entry.2)

@[simp] theorem get?_nil (key : String) : get? ([] : Dictionary α) key = none :=
  rfl

theorem get?_cons (k : String) (v : α) (d : Dictionary α) (key : String) :
    get? ((k, v) :: d) key = if key = k then some v else get? d key := by
  by_cases h : key = k
  · simp [get?, h]
  · simp [get?, List.lookup_cons, h, beq_false_of_ne h]

/-- A look-up after an entry is put finds the new value under its key and the
    old one elsewhere. -/
theorem get?_put (key other : String) (value : α) (d : Dictionary α) :
    get? (put key value d) other = if other = key then some value else get? d other := by
  induction d with
  | nil => simp [put, get?_cons]
  | cons entry d ih =>
    obtain ⟨k, v⟩ := entry
    by_cases h : key = k <;> grind [put, get?_cons]

/-- The same holds of an entry that is put in order. -/
theorem get?_insertSorted (key other : String) (value : α) (d : Dictionary α) :
    get? (insertSorted key value d) other = if other = key then some value else get? d other := by
  induction d with
  | nil => simp [insertSorted, get?_cons]
  | cons entry d ih =>
    obtain ⟨k, v⟩ := entry
    by_cases h : key = k
    · grind [insertSorted, get?_cons]
    · by_cases hlt : key < k <;> simp only [insertSorted, h, hlt, if_false, if_true, get?_cons, ih]
      split <;> split <;> simp_all

/-- A look-up commutes with a map over the values. -/
theorem get?_mapValues (f : α → β) (d : Dictionary α) (key : String) :
    get? (mapValues f d) key = (get? d key).map f := by
  induction d with
  | nil => rfl
  | cons entry d ih =>
    obtain ⟨k, v⟩ := entry
    by_cases h : key = k <;> simp_all [mapValues, get?_cons]

end Dictionary

end PollScript
