/-
Module: RegionFlow.Proofs.Tables
Purpose: What is in a table. Looking up a key finds the one entry with that key; an insertion brings in
  one entry and loses at most the entry it replaces, so values that were distinct stay distinct when
  the new value is new.
Main exports: Table.get?_eq_some_iff, Table.get?_filter_eq_some_iff, Table.mem_entries_insert,
  Table.keys_insert, Table.nodup_values_insert, Table.entries_ofList, Table.get?_ofList_eq_some_iff,
  Table.length_entries_ofList_iff
-/
import Mathlib.Data.List.Induction
import Mathlib.Data.List.Nodup
import Mathlib.Data.List.Perm.Subperm
import RegionFlow.Table

namespace RegionFlow.Table

variable {α β : Type} {table : Table α} {key name : String} {value other : α}

theorem find?_eq_some_iff {entries : List (String × α)}
    (distinct : (entries.map Prod.fst).Nodup) :
    find? key entries = some value ↔ (key, value) ∈ entries := by
  induction entries with
  | nil => simp [find?]
  | cons entry rest ih =>
    rw [List.map_cons, List.nodup_cons] at distinct
    by_cases same : entry.1 = key
    · subst same
      have elsewhere : (entry.1, value) ∉ rest := fun member =>
        distinct.1 (List.mem_map.2 ⟨_, member, rfl⟩)
      simp only [find?, if_true, Option.some.injEq, List.mem_cons, elsewhere, or_false]
      constructor
      · rintro rfl
        rfl
      · intro same
        exact (congrArg Prod.snd same).symm
    · have differs : (key, value) ≠ entry := fun h => same (congrArg Prod.fst h).symm
      simp only [find?, same, if_false, List.mem_cons, differs, false_or]
      exact ih distinct.2

/-- Looking up a key finds the entry with that key. -/
theorem get?_eq_some_iff : table.get? key = some value ↔ (key, value) ∈ table.entries :=
  find?_eq_some_iff table.nodup

theorem mem_values_of_get? (found : table.get? key = some value) : value ∈ table.values :=
  List.mem_map.2 ⟨(key, value), get?_eq_some_iff.1 found, rfl⟩

theorem exists_get?_of_mem_values (member : value ∈ table.values) :
    ∃ key, table.get? key = some value := by
  obtain ⟨entry, inside, rfl⟩ := List.mem_map.1 member
  exact ⟨entry.1, get?_eq_some_iff.2 inside⟩

theorem contains_eq_false_iff : table.contains key = false ↔ table.get? key = none := by
  rw [contains, Option.isSome_eq_false_iff, Option.isNone_iff_eq_none]

/-- The entries after an insertion are the new one and entries that were there. -/
theorem mem_entries_insert {entry : String × α} (member : entry ∈ (table.insert key value).entries) :
    entry = (key, value) ∨ entry ∈ table.entries := by
  have found : (table.insert key value).get? entry.1 = some entry.2 := get?_eq_some_iff.2 member
  rw [get?_insert] at found
  split at found
  · rename_i same
    cases found
    exact .inl (Prod.ext same.symm rfl)
  · exact .inr (get?_eq_some_iff.1 found)

theorem mem_values_insert (member : other ∈ (table.insert key value).values) :
    other = value ∨ other ∈ table.values := by
  obtain ⟨entry, inside, rfl⟩ := List.mem_map.1 member
  rcases mem_entries_insert inside with rfl | old
  · exact .inl rfl
  · exact .inr (List.mem_map.2 ⟨entry, old, rfl⟩)

/-- What is left of a table under a key after entries are taken out. -/
theorem get?_filter_eq_some_iff {keep : String → α → Bool} :
    (table.filter keep).get? key = some value ↔
      table.get? key = some value ∧ keep key value = true := by
  rw [get?_eq_some_iff, get?_eq_some_iff]
  exact List.mem_filter

theorem keys_put_of_mem {entries : List (String × α)} (known : key ∈ entries.map Prod.fst) :
    (put key value entries).map Prod.fst = entries.map Prod.fst := by
  induction entries with
  | nil => cases known
  | cons entry rest ih =>
    by_cases same : entry.1 = key
    · rw [put, if_pos same, List.map_cons, List.map_cons, same]
    · have later : key ∈ rest.map Prod.fst :=
        (List.mem_cons.1 known).resolve_left fun first => same first.symm
      rw [put, if_neg same, List.map_cons, List.map_cons, ih later]

/-- The keys after an insertion: a known key keeps its place, a new one comes last. -/
theorem keys_insert :
    (table.insert key value).keys =
      if key ∈ table.keys then table.keys else table.keys ++ [key] := by
  split
  · rename_i known
    exact keys_put_of_mem known
  · rename_i absent
    rw [keys, entries_insert_of_get?_eq_none value (get?_eq_none_iff.2 absent), List.map_append]
    rfl

theorem nodup_values_put {view : α → β} {entries : List (String × α)}
    (distinct : (entries.map fun entry => view entry.2).Nodup)
    (fresh : view value ∉ entries.map fun entry => view entry.2) :
    ((put key value entries).map fun entry => view entry.2).Nodup := by
  induction entries with
  | nil => simp [put]
  | cons entry rest ih =>
    rw [List.map_cons, List.nodup_cons] at distinct
    rw [List.map_cons, List.mem_cons, not_or] at fresh
    by_cases same : entry.1 = key
    · rw [put, if_pos same, List.map_cons, List.nodup_cons]
      exact ⟨fresh.2, distinct.2⟩
    · rw [put, if_neg same, List.map_cons, List.nodup_cons]
      refine ⟨?_, ih distinct.2 fresh.2⟩
      intro member
      obtain ⟨found, inside, seen⟩ := List.mem_map.1 member
      have known : found = (key, value) ∨ found ∈ rest := by
        clear ih distinct fresh member seen
        induction rest with
        | nil => exact .inl (List.mem_singleton.1 inside)
        | cons next rest ih =>
          by_cases hit : next.1 = key
          · rw [put, if_pos hit, List.mem_cons] at inside
            exact inside.imp_right (List.mem_cons_of_mem next)
          · rw [put, if_neg hit, List.mem_cons] at inside
            rcases inside with rfl | inside
            · exact .inr List.mem_cons_self
            · exact (ih inside).imp_right (List.mem_cons_of_mem next)
      rcases known with rfl | old
      · exact fresh.1 seen
      · exact distinct.1 (List.mem_map.2 ⟨found, old, seen⟩)

/-- Values that differ in some view still do after a value with a new view is inserted. -/
theorem nodup_values_insert {view : α → β} (distinct : (table.values.map view).Nodup)
    (fresh : view value ∉ table.values.map view) :
    ((table.insert key value).values.map view).Nodup := by
  simp only [values, List.map_map] at distinct fresh ⊢
  exact nodup_values_put distinct fresh

/-- Entries under keys that are new and differ are appended, in order. -/
theorem entries_foldl_insert {entries : List (String × α)}
    (distinct : ((table.entries ++ entries).map Prod.fst).Nodup) :
    (entries.foldl (fun table entry => table.insert entry.1 entry.2) table).entries =
      table.entries ++ entries := by
  induction entries generalizing table with
  | nil => exact (List.append_nil _).symm
  | cons entry entries ih =>
    have absent : table.get? entry.1 = none := by
      apply get?_eq_none_iff.2
      intro known
      rw [List.map_append, List.map_cons] at distinct
      exact (List.nodup_append.1 distinct).2.2 _ known _ List.mem_cons_self rfl
    have appended := entries_insert_of_get?_eq_none entry.2 absent
    rw [List.foldl_cons, ih, appended, List.append_assoc, List.singleton_append]
    rw [appended, List.append_assoc]
    exact distinct

/-- The table of a list without a key twice has the entries of the list. -/
theorem entries_ofList {entries : List (String × α)} (distinct : (entries.map Prod.fst).Nodup) :
    (ofList entries).entries = entries :=
  entries_foldl_insert distinct

theorem mem_keys_foldl_insert {entries : List (String × α)} :
    key ∈ (entries.foldl (fun table entry => table.insert entry.1 entry.2) table).keys ↔
      key ∈ table.keys ∨ key ∈ entries.map Prod.fst := by
  induction entries generalizing table with
  | nil => simp
  | cons entry entries ih =>
    have inserted : key ∈ (table.insert entry.1 entry.2).keys ↔ key = entry.1 ∨ key ∈ table.keys :=
      mem_keys_put
    rw [List.foldl_cons, ih, inserted, List.map_cons, List.mem_cons, or_assoc, or_left_comm]

theorem get?_ofList (entries : List (String × α)) (key : String) :
    (ofList entries).get? key =
      (entries.reverse.find? fun entry => entry.1 = key).map Prod.snd := by
  induction entries using List.reverseRecOn with
  | nil => rfl
  | append_singleton entries entry ih =>
    have inserted : ofList (entries ++ [entry]) = (ofList entries).insert entry.1 entry.2 := by
      rw [ofList, List.foldl_append]
      rfl
    rw [inserted, get?_insert, ih, List.reverse_append, List.reverse_singleton,
      List.singleton_append, List.find?_cons]
    by_cases same : entry.1 = key <;> simp [same]

/-- Of the entries of a list under one key, the table of the list holds the last. -/
theorem get?_ofList_eq_some_iff {entries : List (String × α)} :
    (ofList entries).get? key = some value ↔
      ∃ before after, entries = before ++ (key, value) :: after ∧ key ∉ after.map Prod.fst := by
  rw [get?_ofList, Option.map_eq_some_iff]
  constructor
  · rintro ⟨entry, found, rfl⟩
    obtain ⟨same, after, before, turned, none⟩ := List.find?_eq_some_iff_append.1 found
    obtain rfl : entry.1 = key := of_decide_eq_true same
    refine ⟨before.reverse, after.reverse, ?_, ?_⟩
    · rw [← List.reverse_reverse entries, turned]
      simp
    · intro member
      obtain ⟨later, listed, again⟩ := List.mem_map.1 member
      have differs := none later (List.mem_reverse.1 listed)
      simp [again] at differs
  · rintro ⟨before, after, rfl, absent⟩
    refine ⟨(key, value), ?_, rfl⟩
    apply List.find?_eq_some_iff_append.2
    refine ⟨decide_eq_true rfl, after.reverse, before.reverse, by simp, ?_⟩
    intro later member
    have listed := List.mem_reverse.1 member
    have differs : later.1 ≠ key := fun same => absent (same ▸ List.mem_map_of_mem listed)
    simp [differs]

/-- The table of a list has as many entries as the list exactly if the list has no key twice. -/
theorem length_entries_ofList_iff {entries : List (String × α)} :
    (ofList entries).entries.length = entries.length ↔ (entries.map Prod.fst).Nodup := by
  constructor
  · intro same
    -- the keys of the table are distinct and all in the list, so the list has no room for another
    have inside : (ofList entries).keys ⊆ entries.map Prod.fst := by
      intro key member
      exact (mem_keys_foldl_insert.1 member).resolve_left List.not_mem_nil
    have enough : (entries.map Prod.fst).length ≤ (ofList entries).keys.length := by
      apply Nat.le_of_eq
      rw [List.length_map, keys, List.length_map, same]
    have perm := (List.Nodup.subperm (ofList entries).nodup inside).perm_of_length_le enough
    exact perm.nodup_iff.1 (ofList entries).nodup
  · intro distinct
    rw [entries_ofList distinct]

end RegionFlow.Table
