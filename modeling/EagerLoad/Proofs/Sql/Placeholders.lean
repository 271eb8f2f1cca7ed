import EagerLoad.Proofs.Names
import EagerLoad.Proofs.Sql.Layout

/-!
# Placeholders and parameters

What a statement binds are its values other than nulls, in the order in which they are written, and its
text numbers them from one. This holds for statements of every kind, however they nest.
-/

namespace EagerLoad.Sql

/-- A text without placeholders has no numbers. -/
theorem Piece.number?_of_plain {s : String} (h : (text s).plain = true) :
    (Sql.lexemes s).filterMap Lexeme.number? = [] := by
  simp only [plain, Bool.and_eq_true, List.all_eq_true, Option.isNone_iff_eq_none] at h
  exact List.filterMap_eq_nil_iff.mpr h.2

/-- Placeholders are numbered one after the other. -/
theorem Piece.numbers_lexemesFrom {n : Nat} {pieces : List Piece} (h : ∀ p ∈ pieces, p.plain = true) :
    (lexemesFrom n pieces).filterMap Lexeme.number? = List.range' (n + 1) (bound pieces).length := by
  induction pieces generalizing n with
  | nil => rfl
  | cons p rest ih =>
    have hrest := fun {n} => ih (n := n) fun q hq => h q (List.mem_cons_of_mem _ hq)
    cases p with
    | text s =>
      rw [lexemesFrom, List.filterMap_append, number?_of_plain (h _ List.mem_cons_self), hrest]
      rfl
    | name s => exact hrest
    | param v =>
      rw [lexemesFrom, bound_param]
      by_cases hnull : v.isNull = true
      · rw [if_pos hnull, List.filterMap_cons_none rfl, hrest]
        simp [boundValues, hnull]
      · have hnumber : (Lexeme.placeholder (n + 1)).number? = some (n + 1) := rfl
        rw [if_neg hnull, List.filterMap_cons_some hnumber, hrest]
        simp [boundValues, hnull, List.range'_succ]

mutual

/-- The values of a condition, as they are written. -/
def Condition.values : Condition → List Value
  | .compare _ _ value => [value]
  | .inList _ values _ => values
  | .isNull _ _ => []
  | .columnsEqual _ _ => []
  | .and items => valuesAll items
  | .or items => valuesAll items
  | .not item => item.values
  | .literal _ => []

/-- The values of several conditions. -/
def Condition.valuesAll : List Condition → List Value
  | [] => []
  | item :: rest => item.values ++ valuesAll rest

end

mutual

/-- The values of a statement: those of what it reads from, of its joins and of its conditions. -/
def Select.values : Select → List Value
  | ⟨source, _, joins, conditions, _, _, _⟩ =>
    source.values ++ Join.valuesAll joins ++ Condition.valuesAll conditions

/-- The values of what a statement reads from. -/
def Source.values : Source → List Value
  | .table _ _ => []
  | .derived query _ => query.values

/-- The values of joins: for each those of its target, then those of its condition. -/
def Join.valuesAll : List Join → List Value
  | [] => []
  | ⟨_, target, _, on⟩ :: rest => target.values ++ on.values ++ Join.valuesAll rest

/-- The values of what a join brings in. -/
def JoinTarget.values : JoinTarget → List Value
  | .table _ => []
  | .lateral query => query.values

end

/-- A statement of any kind. -/
inductive Statement where
  | select (s : Select)
  | insert (s : Insertion)
  | upsert (s : Upsert)
  | update (s : Update)
  | delete (s : Deletion)
  | count (s : RowCount)
  | exists (s : RowProbe)

namespace Statement

/-- The statement with its bound values, or why it cannot be written. -/
def render : Statement → Except QueryError Query
  | .select s => .ok s.render
  | .insert s => s.render
  | .upsert s => s.render
  | .update s => s.render
  | .delete s => .ok s.render
  | .count s => .ok s.render
  | .exists s => .ok s.render

/-- The values of rows to insert, row by row in the order of their columns. -/
def rowValues (rows : List Values) : List Value :=
  rows.flatMap fun row => row.entries.map (·.2)

/-- The values of a statement, in the order in which they are written. -/
def values : Statement → List Value
  | .select s => s.values
  | .insert s => rowValues s.rows
  | .upsert s => rowValues s.insert.rows
  | .update s => s.values.entries.map (·.2) ++ Condition.valuesAll s.conditions
  | .delete s => Condition.valuesAll s.conditions
  | .count s => Condition.valuesAll s.conditions
  | .exists s => Condition.valuesAll s.conditions

end Statement

section Bound

variable {scope : Option String}

@[simp] theorem Column.bound_pieces (c : Column) : Piece.bound (c.pieces scope) = [] := by
  unfold Column.pieces
  split <;> rfl

namespace Condition

theorem valuesAll_eq_flatMap (items : List Condition) : valuesAll items = items.flatMap values := by
  induction items with
  | nil => rfl
  | cons item rest ih => rw [valuesAll, ih, List.flatMap_cons]

theorem bound_group (separator : String) (neutral : Bool) (groups : List (List Piece)) :
    Piece.bound (group separator neutral groups) = groups.flatMap Piece.bound := by
  unfold group
  split
  · rfl
  · simp
  · simp [Piece.bound_separated]

/-- A condition binds its values but nulls. -/
theorem bound_pieces (c : Condition) : Piece.bound (c.pieces scope) = boundValues c.values := by
  -- The items of a group bind their values one after the other.
  have hgroup (separator : String) (neutral : Bool) (items : List Condition)
      (ih : ∀ c ∈ items, Piece.bound (c.pieces scope) = boundValues c.values) :
      Piece.bound (group separator neutral (piecesAll scope items)) = boundValues (valuesAll items) := by
    rw [bound_group, piecesAll_eq_map, valuesAll_eq_flatMap, List.flatMap_map, boundValues_flatMap]
    exact List.flatMap_congr ih
  induction c using induction with
  | compare column operator v =>
    unfold pieces
    rw [Piece.bound_append, Column.bound_pieces, List.nil_append]
    split
    · rename_i hnull
      simp [values, boundValues, hnull]
    · rename_i hnull
      simp [values, boundValues, hnull]
    · simp [values]
  | inList column values negated =>
    cases values with
    | nil => rfl
    | cons value rest =>
      have hvalues : Piece.bound (separated ", " ((value :: rest).map fun v => [.param v])) =
          boundValues (value :: rest) := by
        rw [Piece.bound_separated, List.flatMap_map, ← List.map_id (value :: rest), boundValues_map]
        simp
      rw [pieces]
      · simp only [Piece.bound_append, Column.bound_pieces, Piece.bound_text, hvalues]
        simp [Condition.values]
      · simp
  | isNull column negated => simp [pieces, values]
  | columnsEqual left right => simp [pieces, values]
  | and items ih => exact hgroup " AND " true items ih
  | or items ih => exact hgroup " OR " false items ih
  | not c ih => simpa [pieces, values] using ih
  | literal truth => rfl

end Condition

@[simp] theorem bound_wherePieces (conditions : List Condition) :
    Piece.bound (wherePieces scope conditions) = boundValues (Condition.valuesAll conditions) := by
  rw [Condition.valuesAll_eq_flatMap, boundValues_flatMap]
  cases conditions with
  | nil => rfl
  | cons c rest =>
    rw [wherePieces]
    · simp only [Piece.bound_text, Piece.bound_separated, Condition.piecesAll_eq_map,
        List.flatMap_map, Condition.bound_pieces]
    · simp

@[simp] theorem bound_orderPieces (ordering : List (Column × Direction)) :
    Piece.bound (orderPieces scope ordering) = [] := by
  cases ordering with
  | nil => rfl
  | cons key rest =>
    rw [orderPieces, Piece.bound_text, Piece.bound_separated, List.flatMap_map]
    · simp
    · simp

@[simp] theorem Projection.bound_listPieces (projections : List Projection) :
    Piece.bound (Projection.listPieces scope projections) = [] := by
  cases projections with
  | nil => rfl
  | cons projection rest =>
    rw [Projection.listPieces, Piece.bound_separated, List.flatMap_eq_nil_iff]
    · intro pieces hpieces
      obtain ⟨projection, -, rfl⟩ := List.mem_map.mp hpieces
      cases projection with
      | column column label => cases label <;> simp [Projection.pieces]
      | everything tableAlias => rfl
    · simp

@[simp] theorem bound_numberClause (keyword : String) (number : Option Nat) :
    Piece.bound (numberClause keyword number) = [] := by
  cases number <;> rfl

end Bound

namespace Select

theorem bound_joins (scope : Option String) {joins : List Join}
    (h : ∀ j ∈ joins, ∀ q ∈ j.target.nested, Piece.bound q.pieces = boundValues q.values) :
    Piece.bound (Join.listPieces scope joins) = boundValues (Join.valuesAll joins) := by
  induction joins with
  | nil => rfl
  | cons j rest ih =>
    obtain ⟨kind, target, tableAlias, on⟩ := j
    have htarget : Piece.bound target.pieces = boundValues target.values := by
      cases target with
      | table table => rfl
      | lateral query =>
        have hquery := h _ List.mem_cons_self query List.mem_cons_self
        simpa [JoinTarget.pieces, JoinTarget.values] using hquery
    have hrest := ih fun j hj => h j (List.mem_cons_of_mem _ hj)
    simp [Join.listPieces, Join.valuesAll, htarget, hrest, Condition.bound_pieces]

/-- A statement binds its values but nulls, whatever it nests. -/
theorem bound_pieces (s : Select) : Piece.bound s.pieces = boundValues s.values := by
  induction s using Select.induction with
  | nest s ih =>
    obtain ⟨source, projections, joins, conditions, ordering, limit, offset⟩ := s
    have hsource : Piece.bound source.pieces = boundValues source.values := by
      cases source with
      | table table tableAlias => rfl
      | derived query tableAlias =>
        have hquery := ih query (List.mem_append_left _ List.mem_cons_self)
        simpa [Source.pieces, Source.values] using hquery
    have hjoins := bound_joins (some source.tableAlias) fun j hj q hq =>
      ih q (List.mem_append_right _ (List.mem_flatMap.mpr ⟨j, hj, hq⟩))
    simp [Select.pieces, Select.values, hsource, hjoins]

end Select

namespace Insertion

@[simp] theorem bound_nameList (names : List String) : Piece.bound (nameList names) = [] := by
  simp [nameList, Piece.bound_separated]

theorem bound_cell (row : Values) (column : String) :
    Piece.bound [cell row column] = boundValues (row.get? column).toList := by
  unfold cell
  cases row.get? column with
  | none => rfl
  | some value => simp

/-- A row binds its values but nulls, if its columns are among those that are written. -/
theorem bound_tuple {columns : List String} {row : Values} (hcolumns : columns.Pairwise (· < ·))
    (h : ∀ column ∈ row.keys, column ∈ columns) :
    Piece.bound (tuple columns row) = boundValues (row.entries.map (·.2)) := by
  have hfound := filterMap_lookup hcolumns row.ascending fun entry hentry =>
    h entry.1 (List.mem_map_of_mem hentry)
  rw [← hfound, List.filterMap_eq_flatMap_toList, boundValues_flatMap]
  simp [tuple, Piece.bound_separated, List.flatMap_map, bound_cell, KeyMap.get?]

/-- An insert binds the values of its rows but nulls. -/
theorem bound_pieces {s : Insertion} {pieces : List Piece} (h : s.pieces = .ok pieces) :
    Piece.bound pieces = boundValues (Statement.rowValues s.rows) := by
  have hmem {row : Values} (hrow : row ∈ s.rows) : ∀ column ∈ row.keys, column ∈ s.columns :=
    fun column hcolumn => mem_sortedNames.mpr (List.mem_flatMap.mpr ⟨row, hrow, hcolumn⟩)
  rw [Statement.rowValues, boundValues_flatMap]
  unfold Insertion.pieces at h
  split at h
  · cases h
  split at h
  · rename_i hcolumns
    split at h
    · cases h
    cases h
    -- Without columns the rows have no entries.
    refine (List.flatMap_eq_nil_iff.mpr fun row hrow => ?_).symm
    have hentries : row.entries = [] := by
      refine List.eq_nil_iff_forall_not_mem.mpr fun entry hentry => ?_
      have hcolumn := hmem hrow entry.1 (List.mem_map_of_mem hentry)
      rw [hcolumns] at hcolumn
      exact List.not_mem_nil hcolumn
    rw [hentries]
    rfl
  · cases h
    simp only [List.cons_append, Piece.bound_text, Piece.bound_name, Piece.bound_append,
      bound_nameList, Piece.bound_separated, List.flatMap_map, List.nil_append]
    exact List.flatMap_congr fun row hrow => bound_tuple (sortedNames_ascending _) (hmem hrow)

end Insertion

namespace Statement

/-- A statement that can be written is laid out as pieces that fit and bind its values but nulls. -/
theorem pieces_of_render {s : Statement} {q : Query} (h : s.render = .ok q) :
    ∃ pieces, q = .ofPieces pieces ∧ Fitting pieces ∧ Piece.bound pieces = boundValues s.values := by
  cases s with
  | select s =>
    cases h
    exact ⟨s.pieces, rfl, s.pieces_fit, s.bound_pieces⟩
  | insert s =>
    change s.render = .ok q at h
    unfold Insertion.render at h
    cases hpieces : s.pieces with
    | error e =>
      rw [hpieces] at h
      cases h
    | ok pieces =>
      rw [hpieces] at h
      cases h
      refine ⟨_, rfl, (Insertion.pieces_fit hpieces).followed returning_follows, ?_⟩
      simp [Insertion.bound_pieces hpieces, values]
  | upsert s =>
    change s.render = .ok q at h
    unfold Upsert.render at h
    split at h
    · cases h
    cases hpieces : s.insert.pieces with
    | error e =>
      rw [hpieces] at h
      cases h
    | ok pieces =>
      rw [hpieces] at h
      cases h
      exact ⟨_, rfl, Upsert.pieces_fit (Insertion.pieces_fit hpieces), by
        simp [Insertion.bound_pieces hpieces, values, Piece.bound_separated, List.flatMap_map]⟩
  | update s =>
    change s.render = .ok q at h
    unfold Update.render at h
    split at h
    · cases h
    · cases h
      exact ⟨_, rfl, s.pieces_fit, by
        simp [values, Piece.bound_separated, List.flatMap_map, boundValues_map]⟩
  | delete s =>
    cases h
    exact ⟨_, rfl, s.pieces_fit, by simp [values]⟩
  | count s =>
    cases h
    exact ⟨_, rfl, s.pieces_fit, by simp [values]⟩
  | «exists» s =>
    cases h
    exact ⟨_, rfl, s.pieces_fit, by simp [values]⟩

end Statement

/-- The placeholders in the text of a statement are numbered from one to the number of its parameters,
in the order in which they stand. The parameters are the values of the statement in the order in which
they are written, without the nulls. -/
theorem placeholders_eq_range {s : Statement} {q : Query} (h : s.render = .ok q) :
    (lexemes q.sql).filterMap Lexeme.number? = List.range' 1 q.params.length ∧
      (∀ v ∈ q.params, v.isNull = false) ∧ q.params = boundValues s.values := by
  obtain ⟨pieces, rfl, hfit, hbound⟩ := Statement.pieces_of_render h
  have hparams : (Query.ofPieces pieces).params = boundValues s.values := by
    rw [Query.ofPieces, Piece.params_writeFrom, hbound]
  refine ⟨?_, fun v hv => ?_, hparams⟩
  · rw [Query.ofPieces, lexemes_writeFrom hfit, Piece.numbers_lexemesFrom hfit.plain,
      Piece.params_writeFrom]
  · rw [hparams, boundValues, List.mem_filter] at hv
    simpa using hv.2

/-- Two rows of different columns, one of them null, into a table whose name holds a quote and a dollar
sign. -/
def mixedRows : Insertion :=
  ⟨"a\"$1", [.ofList [("id", .int32 1), ("name", .null)], .ofList [("id", .int32 2), ("$2", .text "x")]]⟩

/-- The rows as they are inserted: defaults and nulls bind nothing. -/
def mixedRowsQuery : Query :=
  ⟨"INSERT INTO \"a\"\"$1\" (\"$2\", \"id\", \"name\") VALUES (DEFAULT, $1, NULL), " ++
    "($2, $3, DEFAULT) RETURNING *", [.int32 1, .text "x", .int32 2]⟩

theorem mixedRows_placeholders :
    (Statement.insert mixedRows).render = .ok mixedRowsQuery ∧
      (lexemes mixedRowsQuery.sql).filterMap Lexeme.number? = [1, 2, 3] ∧
      (∀ v ∈ mixedRowsQuery.params, v.isNull = false) ∧
      mixedRowsQuery.params = boundValues [.int32 1, .null, .text "x", .int32 2] :=
  ⟨rfl, placeholders_eq_range (s := .insert mixedRows) rfl⟩

end EagerLoad.Sql
