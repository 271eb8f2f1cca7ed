import EagerLoad.KeyMap
import Mathlib.Data.List.Basic
import Mathlib.Data.List.Induction

/-!
# Entries by their keys

What a list of entries has at a key, and what a map has there that was made of such a list.
-/

namespace EagerLoad

variable {α : Type} {key name : String} {v : α} {l : List (String × α)}

theorem lookup_cons_ite {first : String} :
    ((first, v) :: l).lookup key = if key = first then some v else l.lookup key := by
  rw [List.lookup_cons]
  by_cases h : key = first
  · simp [h]
  · rw [beq_false_of_ne h, if_neg h]

/-- Something is found exactly under the keys. -/
theorem mem_keys_iff : key ∈ l.map (·.1) ↔ ∃ v, l.lookup key = some v := by
  rw [← Option.isSome_iff_exists, List.lookup_isSome_iff, List.mem_map]
  refine exists_congr fun entry => and_congr_right fun _ => ?_
  rw [beq_iff_eq, eq_comm]

theorem lookup_eq_none_iff_not_mem : l.lookup key = none ↔ key ∉ l.map (·.1) := by
  rw [mem_keys_iff, ← Option.isSome_iff_exists, Option.not_isSome_iff_eq_none]

/-- Where keys are distinct, an entry is found by its key. -/
theorem lookup_of_mem (hnodup : (l.map (·.1)).Nodup) (h : (key, v) ∈ l) : l.lookup key = some v := by
  induction l with
  | nil => exact absurd h List.not_mem_nil
  | cons entry rest ih =>
    obtain ⟨hfirst, hrest⟩ := List.nodup_cons.mp hnodup
    rcases List.mem_cons.mp h with rfl | h
    · exact List.lookup_cons_self
    · have hmem : key ∈ rest.map (·.1) := List.mem_map_of_mem h
      have hne : key ≠ entry.1 := fun heq => hfirst (show entry.1 ∈ _ from heq ▸ hmem)
      rw [lookup_cons_ite, if_neg hne]
      exact ih hrest h

/-- A map has at a key what was put there last. -/
theorem lookup_insertEntry (key other : String) (v : α) (entries : List (String × α)) :
    (insertEntry key v entries).lookup other =
      if other = key then some v else entries.lookup other := by
  induction entries with
  | nil => exact lookup_cons_ite
  | cons entry rest ih =>
    obtain ⟨first, w⟩ := entry
    unfold insertEntry
    split
    · rw [lookup_cons_ite]
    · split
      · rename_i heq
        obtain rfl : key = first := heq
        rw [lookup_cons_ite, lookup_cons_ite]
        split <;> rfl
      · rename_i hne
        rw [lookup_cons_ite, ih, lookup_cons_ite]
        by_cases hfirst : other = first
        · have hother : other ≠ key := fun heq => hne (heq.symm.trans hfirst)
          rw [if_pos hfirst, if_neg hother, if_pos hfirst]
        · rw [if_neg hfirst, if_neg hfirst]

/-- What is put behind all other keys comes last. -/
theorem insertEntry_concat {entries : List (String × α)} (h : ∀ entry ∈ entries, entry.1 < key) :
    insertEntry key v entries = entries ++ [(key, v)] := by
  induction entries with
  | nil => rfl
  | cons entry rest ih =>
    obtain ⟨hfirst, hrest⟩ := List.forall_mem_cons.mp h
    have hne : key ≠ entry.1 := fun heq => String.lt_irrefl key (heq ▸ hfirst)
    rw [insertEntry, if_neg (String.lt_asymm hfirst), if_neg hne, ih hrest, List.cons_append]

namespace KeyMap

theorem nodup_keys (map : KeyMap α) : map.keys.Nodup := by
  have hascending : map.keys.Pairwise (· < ·) := List.pairwise_map.mpr map.ascending
  exact hascending.imp fun {a b} (hlt : a < b) (heq : a = b) => String.lt_irrefl b (heq ▸ hlt)

theorem get?_insert (map : KeyMap α) (key other : String) (v : α) :
    (map.insert key v).get? other = if other = key then some v else map.get? other :=
  lookup_insertEntry key other v map.entries

theorem mem_keys_erase {map : KeyMap α} : name ∈ (map.erase key).keys ↔ name ∈ map.keys ∧ name ≠ key := by
  simp only [keys, erase, List.mem_map, List.mem_filter, decide_eq_true_eq]
  constructor
  · rintro ⟨entry, ⟨hentry, hne⟩, rfl⟩
    exact ⟨⟨entry, hentry, rfl⟩, hne⟩
  · rintro ⟨⟨entry, hentry, rfl⟩, hne⟩
    exact ⟨entry, ⟨hentry, hne⟩, rfl⟩

theorem ofList_concat (l : List (String × α)) (entry : String × α) :
    ofList (l ++ [entry]) = (ofList l).insert entry.1 entry.2 := by
  simp [ofList]

/-- A map of a list has at a key what stands there last. -/
theorem get?_ofList (l : List (String × α)) (key : String) :
    (ofList l).get? key = l.reverse.lookup key := by
  induction l using List.reverseRecOn with
  | nil => rfl
  | append_singleton l entry ih =>
    rw [ofList_concat, get?_insert, ih, List.reverse_append, List.reverse_singleton, List.singleton_append]
    exact lookup_cons_ite.symm

/-- A map of ascending entries has these entries. -/
theorem entries_ofList (h : Ascending l) : (ofList l).entries = l := by
  induction l using List.reverseRecOn with
  | nil => rfl
  | append_singleton l entry ih =>
    obtain ⟨hl, -, hlast⟩ := List.pairwise_append.mp h
    rw [ofList_concat]
    change insertEntry entry.1 entry.2 (ofList l).entries = l ++ [entry]
    rw [ih hl]
    exact insertEntry_concat fun other hother => hlast other hother entry List.mem_cons_self

theorem mem_keys_ofList : key ∈ (ofList l).keys ↔ key ∈ l.map (·.1) := by
  have hget : key ∈ (ofList l).keys ↔ ∃ v, (ofList l).get? key = some v := mem_keys_iff
  rw [hget, get?_ofList]
  simp [← mem_keys_iff]

/-- A map that is made from names has for each of them its value. -/
theorem get?_ofList_map {f : String → α} {names : List String} (h : name ∈ names) :
    (ofList (names.map fun c => (c, f c))).get? name = some (f name) := by
  rw [get?_ofList, ← List.map_reverse]
  exact List.lookup_graph f (List.mem_reverse.mpr h)

end KeyMap

end EagerLoad
