import EagerLoad.Proofs.Loading.Reference
import EagerLoad.Proofs.Maps

/-!
# Key tuples

A batch asks for the key tuples of its parent records. The tuple of a row has the row's cells, none of
them null, and the filter of a batch lets a target through if its link is equal to one of the tuples.
-/

namespace EagerLoad

open Sql

variable {n : Node} {row : Tuple} {columns : List String} {db : Database} {value : Column → Value}
  {link : List Column} {keys : List (List Value)}

/-- The columns of a node in a row have the cells of the row. -/
theorem Node.get?_columnsOf {column : String} (h : column ∈ n.columns) :
    (n.columnsOf row).get? column = some (row.cell column) :=
  KeyMap.get?_ofList_map h

/-- A key is complete exactly if it has the values of its columns and none of them is null. -/
theorem completeKey_eq_some {values : KeyMap Value} {cell : String → Value}
    (h : ∀ column ∈ columns, values.get? column = some (cell column)) {key : List Value} :
    completeKey values columns = some key ↔
      (∀ column ∈ columns, cell column ≠ .null) ∧ columns.map cell = key := by
  induction columns generalizing key with
  | nil => simp [completeKey]
  | cons column rest ih =>
    obtain ⟨hcolumn, hrest⟩ := List.forall_mem_cons.mp h
    simp only [completeKey_cons, hcolumn, Option.bind_eq_some_iff, Option.filter_eq_some_iff, ih hrest, List.forall_mem_cons,
      List.map_cons]
    constructor
    · rintro ⟨v, ⟨hv, hnull⟩, vs, ⟨hall, hvs⟩, hcons⟩
      cases hv
      refine ⟨⟨fun hcell => ?_, hall⟩, ?_⟩
      · simp [hcell, Value.isNull] at hnull
      · rw [hvs]
        exact Option.some.inj hcons
    · rintro ⟨⟨hcell, hall⟩, hcons⟩
      refine ⟨_, ⟨rfl, ?_⟩, _, ⟨hall, rfl⟩, congrArg some hcons⟩
      cases hv : cell column <;> simp_all [Value.isNull]

/-- The key of a row is complete exactly if it has the row's cells and none of them is null. -/
theorem Node.completeKey_columnsOf_eq_some (h : columns ⊆ n.columns) {key : List Value} :
    completeKey (n.columnsOf row) columns = some key ↔
      (∀ column ∈ columns, row.cell column ≠ .null) ∧ columns.map row.cell = key :=
  completeKey_eq_some fun _ hcolumn => Node.get?_columnsOf (h hcolumn)

/-- The key of a row is incomplete exactly if one of its cells is null. -/
theorem Node.completeKey_columnsOf_eq_none (h : columns ⊆ n.columns) :
    completeKey (n.columnsOf row) columns = none ↔ ∃ column ∈ columns, row.cell column = .null := by
  rw [Option.eq_none_iff_forall_ne_some]
  constructor
  · intro hnone
    by_contra hall
    push Not at hall
    exact hnone _ ((Node.completeKey_columnsOf_eq_some h).mpr ⟨hall, rfl⟩)
  · rintro ⟨column, hcolumn, hnull⟩ key hkey
    exact ((Node.completeKey_columnsOf_eq_some h).mp hkey).1 column hcolumn hnull

/-- To compare with a value that is not null is left to the database. -/
theorem Sql.Condition.eval_compare {column : Column} {v : Value} (hv : v ≠ .null) :
    (Condition.compare column .equal v).eval db value = db.compare .equal (value column) v := by
  cases v with
  | null => exact absurd rfl hv
  | _ => rfl

theorem Sql.Condition.holds_compare {column : Column} {v : Value} (hv : v ≠ .null) :
    (Condition.compare column .equal v).holds db value = true ↔
      db.compare .equal (value column) v = some true := by
  rw [Condition.holds_iff, Condition.eval_compare hv]

/-- The filter of a batch holds where the link is equal to one of the keys. -/
theorem holds_linkFilter (hlength : ∀ key ∈ keys, key.length = link.length)
    (hnull : ∀ key ∈ keys, Value.null ∉ key) :
    (linkFilter link keys).holds db value = true ↔
      ∃ key ∈ keys, ∀ e ∈ link.zip key, db.compare .equal (value e.1) e.2 = some true := by
  unfold linkFilter
  split
  · rename_i column
    rw [Condition.holds_iff, Condition.eval]
    simp only [Bool.false_eq_true, if_false, Truth.any_eq_true, List.mem_map, List.mem_filterMap]
    constructor
    · rintro ⟨v, ⟨key, hkey, hhead⟩, hequal⟩
      obtain ⟨w, rfl⟩ := List.length_eq_one_iff.mp (hlength key hkey)
      cases hhead
      exact ⟨_, hkey, by simpa using hequal⟩
    · rintro ⟨key, hkey, hequal⟩
      obtain ⟨w, rfl⟩ := List.length_eq_one_iff.mp (hlength key hkey)
      exact ⟨w, ⟨_, hkey, rfl⟩, by simpa using hequal⟩
  · rw [Condition.holds_or]
    simp only [List.mem_map, exists_exists_and_eq_and]
    refine exists_congr fun key => and_congr_right fun hkey => ?_
    rw [Condition.holds_all, List.forall_mem_map]
    apply forall₂_congr
    intro e he
    refine Condition.holds_compare fun hv => hnull key hkey ?_
    exact hv ▸ (List.of_mem_zip he).2

end EagerLoad
