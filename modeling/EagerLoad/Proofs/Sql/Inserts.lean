import EagerLoad.Proofs.Sql.Placeholders
import EagerLoad.Proofs.Sql.Writes

/-!
# The table that an insert writes

An insert writes one tuple for each row, with one entry for each column that some row has. Rows may have
different columns, and only values that are not null are numbered, so the number of a placeholder depends on
all rows before it. Nevertheless every value stands in its own row and column.
-/

namespace EagerLoad.Sql

/-- What is written in a row for a column. -/
inductive Entry where
  | default
  | null
  | placeholder (number : Nat)

namespace Entry

/-- An entry as written. -/
def text : Entry → String
  | .default => "DEFAULT"
  | .null => "NULL"
  | .placeholder number => "$" ++ toString number

/-- A tuple of entries as written. -/
def tupleText (entries : List Entry) : String :=
  "(" ++ ", ".intercalate (entries.map text) ++ ")"

/-- The entry for what a row has for a column, where a number of values are bound before it. -/
def of (before : Nat) : Option Value → Entry
  | none => .default
  | some v => if v.isNull then .null else .placeholder (before + 1)

/-- An entry stands for what a row has for a column, where a number of values are bound before it: a default if
the row lacks the column, a null if it has a null there, and else the next placeholder, whose parameter is the
value of the row. -/
inductive StandsFor (params : List Value) (before : Nat) : Option Value → Entry → Prop
  | lacking : StandsFor params before none .default
  | null : StandsFor params before (some .null) .null
  | value {v : Value} (given : v.isNull = false) (bound : params[before]? = some v) :
    StandsFor params before (some v) (.placeholder (before + 1))

end Entry

namespace Insertion

/-- The values but nulls that a row has in some columns, in the order of the columns. -/
def given (columns : List String) (row : Values) : List Value :=
  boundValues (columns.filterMap row.get?)

/-- The values but nulls in the rows before a row, and in the row before a column. -/
def givenBefore (columns : List String) (rows : List Values) (i : Nat) (row : Values) (j : Nat) : List Value :=
  (rows.take i).flatMap (given columns) ++ given (columns.take j) row

/-- A query inserts the rows as a table of entries. -/
structure Tabulates (s : Insertion) (columns : List String) (tuples : List (List Entry)) (q : Query) :
    Prop where
  text : q.sql = "INSERT INTO " ++ quoteName s.table ++ " (" ++ ", ".intercalate (columns.map quoteName) ++
    ") VALUES " ++ ", ".intercalate (tuples.map Entry.tupleText) ++ " RETURNING *"
  /-- The columns are those of all rows, each once. -/
  ascending : columns.Pairwise (· < ·)
  union : ∀ column, column ∈ columns ↔ ∃ row ∈ s.rows, column ∈ row.keys
  /-- There is a tuple for each row, in order, with an entry for each column. -/
  height : tuples.length = s.rows.length
  width : ∀ tuple ∈ tuples, tuple.length = columns.length
  entry : ∀ i row j column, s.rows[i]? = some row → columns[j]? = some column →
    ∃ tuple entry, tuples[i]? = some tuple ∧ tuple[j]? = some entry ∧
      Entry.StandsFor q.params (givenBefore columns s.rows i row j).length (row.get? column) entry
  /-- Nothing but the values of the rows is bound. -/
  params : q.params = s.rows.flatMap (given columns)

variable {s : Insertion} {columns : List String} {row : Values}

/-! ### Cells and tuples -/

theorem given_eq_flatMap (columns : List String) (row : Values) :
    given columns row = columns.flatMap fun column => Piece.bound [cell row column] := by
  rw [given, List.filterMap_eq_flatMap_toList, boundValues_flatMap]
  exact List.flatMap_congr fun column _ => (bound_cell row column).symm

theorem bound_tuple_eq_given (columns : List String) (row : Values) :
    Piece.bound (tuple columns row) = given columns row := by
  rw [given_eq_flatMap, tuple]
  simp [Piece.bound_separated, List.flatMap_map]

/-- What is written for a row, where a number of values are bound before it. -/
def tupleFrom (n : Nat) (columns : List String) (row : Values) : List Entry :=
  columns.mapIdx fun j column => .of (n + (given (columns.take j) row).length) (row.get? column)

theorem sql_cell (n : Nat) (row : Values) (column : String) :
    (Piece.writeFrom n [cell row column]).sql = (Entry.of n (row.get? column)).text := by
  unfold cell
  cases row.get? column with
  | none => rfl
  | some v => by_cases hnull : v.isNull = true <;> simp [Piece.writeFrom, Entry.of, Entry.text, hnull]

theorem sql_tuple (n : Nat) (columns : List String) (row : Values) :
    (Piece.writeFrom n (tuple columns row)).sql = Entry.tupleText (tupleFrom n columns row) := by
  have hcells : ∀ j, ∀ column ∈ columns[j]?,
      (Piece.writeFrom (n + ((columns.take j).flatMap fun column => Piece.bound [cell row column]).length)
        [cell row column]).sql =
          (Entry.of (n + (given (columns.take j) row).length) (row.get? column)).text := by
    intro j column _
    rw [sql_cell, given_eq_flatMap]
  rw [tuple, List.cons_append, Piece.writeFrom, Piece.sql_append, Piece.sql_separated_map hcells]
  simp [Entry.tupleText, tupleFrom, Piece.writeFrom, String.append_assoc]

/-! ### The table of entries -/

/-- The entries of all rows. -/
def grid (s : Insertion) : List (List Entry) :=
  s.rows.mapIdx fun i row => tupleFrom ((s.rows.take i).flatMap (given s.columns)).length s.columns row

theorem sql_nameList (n : Nat) (names : List String) :
    (Piece.writeFrom n (nameList names)).sql = ", ".intercalate (names.map quoteName) := by
  have hunbound : ∀ g ∈ names.map fun name => [Piece.name name], Piece.bound g = [] := by
    intro g hg
    obtain ⟨name, -, rfl⟩ := List.mem_map.mp hg
    rfl
  rw [nameList, Piece.sql_separated_unbound hunbound, List.map_map]
  refine congrArg _ (List.map_congr_left fun name _ => ?_)
  simp [Piece.writeFrom]

theorem sql_tuples (s : Insertion) : (Piece.writeFrom 0 (separated ", " (s.rows.map (tuple s.columns)))).sql =
    ", ".intercalate (s.grid.map Entry.tupleText) := by
  refine Piece.sql_separated_map (fun i row _ => ?_) ", "
  simp only [bound_tuple_eq_given, Nat.zero_add, sql_tuple]

/-- Where a row has a column there are columns, and so the statement is written with tuples. -/
theorem render_of_column (h : ∃ row ∈ s.rows, row.keys ≠ []) : s.render = .ok (.ofPieces
    (.text "INSERT INTO " :: .name s.table :: .text " (" :: nameList s.columns ++ .text ") VALUES "
      :: separated ", " (s.rows.map (tuple s.columns)) ++ [.text " RETURNING *"])) := by
  obtain ⟨row, hrow, hkeys⟩ := h
  have hrows : ¬ s.rows.isEmpty = true := by
    simpa using List.ne_nil_of_mem hrow
  have hcolumns : s.columns ≠ [] := fun hnil => hkeys (columns_eq_nil.mp hnil row hrow)
  rw [render, pieces, if_neg hrows]
  split
  · rename_i hnil
    exact absurd hnil hcolumns
  · rfl

/-! ### The parameter of an entry -/

theorem eq_take_append_cons {α : Type} {l : List α} {i : Nat} {a : α} (h : l[i]? = some a) :
    l = l.take i ++ a :: l.drop (i + 1) := by
  obtain ⟨hi, rfl⟩ := List.getElem?_eq_some_iff.mp h
  rw [← List.drop_eq_getElem_cons hi, List.take_append_drop]

theorem given_append (l m : List String) (row : Values) : given (l ++ m) row = given l row ++ given m row := by
  rw [given, List.filterMap_append, boundValues_append]
  rfl

/-- The values before a value of a row are in front of it among all values. -/
theorem given_rows_eq {i j : Nat} {column : String} {v : Value} (hrow : s.rows[i]? = some row)
    (hcolumn : s.columns[j]? = some column) (hv : row.get? column = some v) (hnull : v.isNull = false) :
    ∃ later, s.rows.flatMap (given s.columns) = givenBefore s.columns s.rows i row j ++ v :: later := by
  have hgiven : given s.columns row =
      given (s.columns.take j) row ++ v :: given (s.columns.drop (j + 1)) row := by
    conv_lhs => rw [eq_take_append_cons hcolumn, given_append]
    simp [given, hv, boundValues, hnull]
  refine ⟨given (s.columns.drop (j + 1)) row ++ (s.rows.drop (i + 1)).flatMap (given s.columns), ?_⟩
  conv_lhs => rw [eq_take_append_cons hrow, List.flatMap_append, List.flatMap_cons, hgiven]
  simp [givenBefore]

/-- The entry for a value stands for it among the parameters. -/
theorem standsFor_of {i j : Nat} {column : String} (hrow : s.rows[i]? = some row)
    (hcolumn : s.columns[j]? = some column) :
    Entry.StandsFor (s.rows.flatMap (given s.columns)) (givenBefore s.columns s.rows i row j).length
      (row.get? column) (.of (givenBefore s.columns s.rows i row j).length (row.get? column)) := by
  cases hv : row.get? column with
  | none => exact .lacking
  | some v =>
    by_cases hnull : v.isNull = true
    · obtain rfl := Value.isNull_iff.mp hnull
      exact .null
    · have hgiven : v.isNull = false := by simpa using hnull
      obtain ⟨later, hlater⟩ := given_rows_eq hrow hcolumn hv hgiven
      rw [Entry.of, if_neg hnull]
      refine .value hgiven ?_
      rw [hlater, List.getElem?_append_right (Nat.le_refl _), Nat.sub_self]
      rfl

/-- The statement for rows with a column inserts them as the table of their entries. -/
theorem tabulates_grid (h : ∃ row ∈ s.rows, row.keys ≠ []) :
    ∃ q, s.render = .ok q ∧ s.Tabulates s.columns s.grid q := by
  refine ⟨_, render_of_column h, ?_⟩
  have hparams : (Query.ofPieces (.text "INSERT INTO " :: .name s.table :: .text " (" :: nameList s.columns
      ++ .text ") VALUES " :: separated ", " (s.rows.map (tuple s.columns)) ++
        [.text " RETURNING *"])).params = s.rows.flatMap (given s.columns) := by
    rw [Query.ofPieces, Piece.params_writeFrom]
    simp [bound_nameList, Piece.bound_separated, List.flatMap_map, bound_tuple_eq_given]
  refine ⟨?_, sortedNames_ascending _, fun column => ?_, by simp [grid], ?_, ?_, hparams⟩
  · simp only [Query.ofPieces, List.cons_append, List.append_assoc, Piece.writeFrom, Piece.sql_append,
      sql_nameList, bound_nameList, List.length_nil, Nat.add_zero, sql_tuples]
    simp [String.append_assoc]
  · rw [mem_columns, List.mem_flatMap]
  · intro tuple htuple
    obtain ⟨i, hi, rfl⟩ := List.mem_mapIdx.mp htuple
    simp [tupleFrom]
  · intro i row j column hrow hcolumn
    rw [hparams]
    refine ⟨tupleFrom ((s.rows.take i).flatMap (given s.columns)).length s.columns row, _, ?_, ?_,
      standsFor_of hrow hcolumn⟩
    · rw [grid, List.getElem?_mapIdx, hrow, Option.map_some]
    · rw [tupleFrom, List.getElem?_mapIdx, hcolumn, Option.map_some, givenBefore, List.length_append]

/-- An insert is written if there are rows, and one of them has a column or it is the only one. Where a row has
a column, every value is written in its own row and column. -/
theorem render_tabulates (s : Insertion) :
    ((∃ q, s.render = .ok q) ↔
        s.rows ≠ [] ∧ ((∃ row ∈ s.rows, row.keys ≠ []) ∨ s.rows.length = 1)) ∧
      ((∃ row ∈ s.rows, row.keys ≠ []) →
        ∃ q columns tuples, s.render = .ok q ∧ s.Tabulates columns tuples q) := by
  refine ⟨?_, fun h => ?_⟩
  · by_cases hrows : s.rows = []
    · simp [render, pieces, hrows, bind, Except.bind]
    · have hlength : 0 < s.rows.length := List.length_pos_iff.mpr hrows
      rw [exists_render hrows, and_iff_right hrows]
      constructor
      · intro h
        by_cases hcolumn : ∃ row ∈ s.rows, row.keys ≠ []
        · exact .inl hcolumn
        · push Not at hcolumn
          refine .inr ?_
          have : ¬ 1 < s.rows.length := fun hmore => h ⟨hmore, hcolumn⟩
          omega
      · rintro (⟨row, hrow, hkeys⟩ | hone) ⟨hmore, hnone⟩
        · exact hkeys (hnone row hrow)
        · omega
  · obtain ⟨q, hq, htable⟩ := tabulates_grid h
    exact ⟨q, _, _, hq, htable⟩

/-- A null and a default in between do not shift the other values. -/
theorem mixedRows_tabulates : (∃ row ∈ mixedRows.rows, row.keys ≠ []) ∧
    ∃ columns tuples, mixedRows.Tabulates columns tuples mixedRowsQuery := by
  have hcolumn : ∃ row ∈ mixedRows.rows, row.keys ≠ [] :=
    ⟨.ofList [("id", .int32 1), ("name", .null)], .head _, by decide⟩
  obtain ⟨q, columns, tuples, hq, htable⟩ := (render_tabulates mixedRows).2 hcolumn
  obtain rfl : mixedRowsQuery = q := Except.ok.inj hq
  exact ⟨hcolumn, columns, tuples, htable⟩

end Insertion

end EagerLoad.Sql
