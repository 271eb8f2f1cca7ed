import EagerLoad.KeyMap
import Mathlib.Data.List.Sort
import Mathlib.Tactic.Tauto

/-!
# Sorted names

The names of a list in ascending order: which they are, that they ascend, and the entries that are found
by them.
-/

namespace EagerLoad

/-- Inserting a name adds it. -/
theorem mem_insertName {name x : String} {names : List String} :
    x ∈ insertName name names ↔ x = name ∨ x ∈ names := by
  induction names with
  | nil => simp [insertName]
  | cons first rest ih =>
    rw [insertName]
    split
    · simp
    · split
      · rename_i heq
        simp [heq]
      · rw [List.mem_cons, ih, List.mem_cons]
        tauto

/-- Sorting names neither drops nor adds one. -/
theorem mem_sortedNames {x : String} {names : List String} : x ∈ sortedNames names ↔ x ∈ names := by
  induction names with
  | nil => simp [sortedNames]
  | cons first rest ih =>
    rw [sortedNames, List.foldr_cons, mem_insertName, List.mem_cons]
    exact or_congr_right ih

/-- Names stay in ascending order when one is inserted. -/
theorem insertName_ascending {name : String} {names : List String} (h : names.Pairwise (· < ·)) :
    (insertName name names).Pairwise (· < ·) := by
  induction names with
  | nil => simp [insertName]
  | cons first rest ih =>
    obtain ⟨hfirst, hrest⟩ := List.pairwise_cons.mp h
    rw [insertName]
    split
    · rename_i hlt
      refine List.pairwise_cons.mpr ⟨fun x hx => ?_, h⟩
      rcases List.mem_cons.mp hx with rfl | hx
      · exact hlt
      · exact String.lt_trans hlt (hfirst x hx)
    · split
      · exact h
      · rename_i hlt hne
        refine List.pairwise_cons.mpr ⟨fun x hx => ?_, ih hrest⟩
        rcases mem_insertName.mp hx with rfl | hx
        · exact key_lt_of_not_lt hlt hne
        · exact hfirst x hx

/-- Sorted names ascend, so none occurs twice. -/
theorem sortedNames_ascending (names : List String) : (sortedNames names).Pairwise (· < ·) := by
  induction names with
  | nil => exact .nil
  | cons first rest ih => exact insertName_ascending ih

/-- Lists of names are sorted alike exactly if they hold the same names. -/
theorem sortedNames_eq_iff {names names' : List String} :
    sortedNames names = sortedNames names' ↔ ∀ name, name ∈ names ↔ name ∈ names' := by
  constructor
  · intro h name
    rw [← mem_sortedNames, h, mem_sortedNames]
  · intro h
    refine (sortedNames_ascending names).eq_of_mem_iff (sortedNames_ascending names') fun name => ?_
    rw [mem_sortedNames, mem_sortedNames]
    exact h name

/-- Looking up ascending names, among which are all keys, finds every entry in its place. -/
theorem filterMap_lookup {α : Type} {names : List String} {entries : List (String × α)}
    (hnames : names.Pairwise (· < ·)) (hentries : Ascending entries)
    (h : ∀ entry ∈ entries, entry.1 ∈ names) :
    names.filterMap (List.lookup · entries) = entries.map (·.2) := by
  have hne {a b : String} (hlt : a < b) : a ≠ b := fun heq => String.lt_irrefl a (heq ▸ hlt)
  induction names generalizing entries with
  | nil =>
    cases entries with
    | nil => rfl
    | cons entry rest => exact absurd (h entry List.mem_cons_self) List.not_mem_nil
  | cons first rest ih =>
    obtain ⟨hfirst, hrest⟩ := List.pairwise_cons.mp hnames
    cases entries with
    | nil => simp
    | cons entry others =>
      obtain ⟨key, value⟩ := entry
      obtain ⟨hkey, hothers⟩ := List.pairwise_cons.mp hentries
      by_cases heq : key = first
      · subst heq
        have hbelow : ∀ e ∈ others, e.1 ∈ rest := fun e he =>
          List.mem_of_ne_of_mem (hne (hkey e he)).symm (h e (List.mem_cons_of_mem _ he))
        have hskip : ∀ name ∈ rest, ((key, value) :: others).lookup name = others.lookup name :=
          fun name hname => by rw [List.lookup_cons, beq_false_of_ne (hne (hfirst name hname)).symm]
        rw [List.filterMap_cons, List.lookup_cons_self, List.map_cons, ← ih hrest hothers hbelow,
          List.filterMap_congr hskip]
      · -- The first name is below all keys.
        have hrestkey : key ∈ rest := List.mem_of_ne_of_mem heq (h _ List.mem_cons_self)
        have habove : ∀ e ∈ (key, value) :: others, first < e.1 := by
          intro e he
          rcases List.mem_cons.mp he with rfl | he
          · exact hfirst key hrestkey
          · exact String.lt_trans (hfirst key hrestkey) (hkey e he)
        have hnone : ((key, value) :: others).lookup first = none :=
          List.lookup_eq_none_iff.mpr fun e he =>
            bne_iff_ne.mpr (hne (habove e he))
        have hbelow : ∀ e ∈ (key, value) :: others, e.1 ∈ rest := fun e he =>
          List.mem_of_ne_of_mem (hne (habove e he)).symm (h e he)
        rw [List.filterMap_cons, hnone]
        exact ih hrest hentries hbelow

end EagerLoad
