/-!
# Maps with string keys in ascending order

A `KeyMap` is a list of entries whose keys ascend strictly, so one list stands for one map and its
order is the order in which columns are written. Writing a key twice keeps the later value.
-/

namespace EagerLoad

/-- Put `value` at `key` into entries in ascending order, over any entry of that key. -/
def insertEntry {α : Type} (key : String) (value : α) : List (String × α) → List (String × α)
  | [] => [(key, value)]
  | entry :: rest =>
    if key < entry.1 then (key, value) :: entry :: rest
    else if key = entry.1 then (key, value) :: rest
    else entry :: insertEntry key value rest

/-- Entries whose keys ascend strictly. -/
def Ascending {α : Type} (entries : List (String × α)) : Prop :=
  entries.Pairwise fun a b => a.1 < b.1

theorem mem_insertEntry {α : Type} {key : String} {value : α} {entries : List (String × α)}
    {entry : String × α} (h : entry ∈ insertEntry key value entries) :
    entry = (key, value) ∨ entry ∈ entries := by
  induction entries with
  | nil => simpa [insertEntry] using h
  | cons first rest ih =>
    rw [insertEntry] at h
    split at h
    · simpa using h
    · split at h
      · rcases List.mem_cons.mp h with h | h
        · exact .inl h
        · exact .inr (List.mem_cons_of_mem _ h)
      · rcases List.mem_cons.mp h with h | h
        · exact .inr (h ▸ List.mem_cons_self)
        · exact (ih h).imp_right (List.mem_cons_of_mem _)

/-- Of two distinct keys one comes first. -/
theorem key_lt_of_not_lt {a b : String} (hlt : ¬ a < b) (hne : a ≠ b) : b < a :=
  Classical.byContradiction fun hba =>
    hne (String.le_antisymm (String.not_lt.mp hba) (String.not_lt.mp hlt))

theorem Ascending.insertEntry {α : Type} {entries : List (String × α)} (h : Ascending entries)
    (key : String) (value : α) : Ascending (insertEntry key value entries) := by
  induction entries with
  | nil => simp [EagerLoad.insertEntry, Ascending]
  | cons first rest ih =>
    obtain ⟨hfirst, hrest⟩ := List.pairwise_cons.mp h
    rw [EagerLoad.insertEntry]
    split
    · rename_i hlt
      refine List.pairwise_cons.mpr ⟨fun entry hentry => ?_, h⟩
      rcases List.mem_cons.mp hentry with rfl | hentry
      · exact hlt
      · exact String.lt_trans hlt (hfirst entry hentry)
    · rename_i hlt
      split
      · rename_i heq
        refine List.pairwise_cons.mpr ⟨fun entry hentry => ?_, hrest⟩
        exact heq ▸ hfirst entry hentry
      · rename_i hne
        refine List.pairwise_cons.mpr ⟨fun entry hentry => ?_, ih hrest⟩
        rcases mem_insertEntry hentry with rfl | hentry
        · exact key_lt_of_not_lt hlt hne
        · exact hfirst entry hentry

/-- A finite map from strings, held as entries with strictly ascending keys. -/
structure KeyMap (α : Type) where
  /-- The entries in key order. -/
  entries : List (String × α)
  /-- Keys ascend, so none occurs twice. -/
  ascending : Ascending entries

namespace KeyMap

variable {α : Type}

/-- The map without entries. -/
def empty : KeyMap α := ⟨[], List.Pairwise.nil⟩

instance : Inhabited (KeyMap α) := ⟨empty⟩

/-- Write `value` at `key`, over an earlier value. -/
def insert (map : KeyMap α) (key : String) (value : α) : KeyMap α :=
  ⟨insertEntry key value map.entries, map.ascending.insertEntry key value⟩

/-- The map of a list of entries; of equal keys the last one counts. -/
def ofList (entries : List (String × α)) : KeyMap α :=
  entries.foldl (fun map entry => map.insert entry.1 entry.2) empty

/-- The value at `key`. -/
def get? (map : KeyMap α) (key : String) : Option α :=
  map.entries.lookup key

/-- The map without its entry at `key`. -/
def erase (map : KeyMap α) (key : String) : KeyMap α :=
  ⟨map.entries.filter fun entry => entry.1 ≠ key, map.ascending.filter _⟩

/-- The keys in ascending order. -/
def keys (map : KeyMap α) : List String :=
  map.entries.map (·.1)

/-- Whether the map has no entry. -/
def isEmpty (map : KeyMap α) : Bool :=
  map.entries.isEmpty

end KeyMap

/-- Put `name` into a strictly ascending list of names that may already hold it. -/
def insertName (name : String) : List String → List String
  | [] => [name]
  | first :: rest =>
    if name < first then name :: first :: rest
    else if name = first then first :: rest
    else first :: insertName name rest

/-- The distinct names of a list, in ascending order. -/
def sortedNames (names : List String) : List String :=
  names.foldr insertName []

end EagerLoad
