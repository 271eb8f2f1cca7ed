import EagerLoad.Error
import EagerLoad.Sql.Condition

/-!
# Statements that write, and aggregates

Writing statements return the rows they touch. An insert writes the union of its rows' columns; what a
row lacks falls to the default of its column. An upsert overwrites every inserted column that is not
part of the conflict. Columns of these statements are written without a qualifier.
-/

namespace EagerLoad.Sql

/-- Column values of one row, by column. -/
abbrev Values := KeyMap Value

/-- An INSERT of rows into a table. -/
structure Insertion where
  table : String
  rows : List Values

namespace Insertion

/-- The columns of all rows, in ascending order. -/
def columns (s : Insertion) : List String :=
  sortedNames (s.rows.flatMap KeyMap.keys)

/-- What a row writes into a column: its value, or the column's default. -/
def cell (row : Values) (column : String) : Piece :=
  match row.get? column with
  | some value => .param value
  | none => .text "DEFAULT"

/-- The values of a row between parentheses. -/
def tuple (columns : List String) (row : Values) : List Piece :=
  .text "(" :: separated ", " (columns.map fun column => [cell row column]) ++ [.text ")"]

/-- Names with commas between them. -/
def nameList (names : List String) : List Piece :=
  separated ", " (names.map fun name => [.name name])

/-- The statement up to its values, or why there is none. -/
def pieces (s : Insertion) : Except QueryError (List Piece) :=
  if s.rows.isEmpty then .error (.missingFields s!"no rows to insert into '{s.table}'")
  else match s.columns with
    | [] =>
      if s.rows.length > 1 then
        .error (.missingFields "multi-row insert needs at least one column")
      else .ok [.text "INSERT INTO ", .name s.table, .text " DEFAULT VALUES"]
    | columns =>
      .ok (.text "INSERT INTO " :: .name s.table :: .text " (" :: nameList columns
        ++ .text ") VALUES " :: separated ", " (s.rows.map (tuple columns)))

/-- The statement with its bound values. -/
def render (s : Insertion) : Except QueryError Query := do
  let pieces ← s.pieces
  return .ofPieces (pieces ++ [.text " RETURNING *"])

end Insertion

/-- An insert that updates rows in conflict over some columns. -/
structure Upsert where
  insert : Insertion
  /-- The columns whose equality makes a conflict. -/
  conflict : List String

namespace Upsert

/-- The columns overwritten on conflict. -/
def updateColumns (s : Upsert) : List String :=
  s.insert.columns.filter fun column => !s.conflict.contains column

/-- The statement with its bound values. When no column is to be overwritten, the first column of the
conflict is assigned to itself, so that the row in conflict is still returned. -/
def render (s : Upsert) : Except QueryError Query :=
  match s.conflict with
  | [] => .error (.missingFields "upsert needs at least one conflict column")
  | first :: _ => do
    let inserted ← s.insert.pieces
    let assigned := match s.updateColumns with
      | [] => [first]
      | columns => columns
    return .ofPieces (inserted ++ .text " ON CONFLICT (" :: Insertion.nameList s.conflict
      ++ .text ") DO UPDATE SET " :: separated ", " (assigned.map fun column =>
        [.name column, .text " = EXCLUDED.", .name column])
      ++ [.text " RETURNING *"])

end Upsert

/-- An UPDATE of matching rows. -/
structure Update where
  table : String
  values : Values
  conditions : List Condition

/-- The statement with its bound values. -/
def Update.render (s : Update) : Except QueryError Query :=
  if s.values.isEmpty then .error (.missingFields s!"no columns to update on '{s.table}'")
  else .ok (.ofPieces (.text "UPDATE " :: .name s.table :: .text " SET "
    :: separated ", " (s.values.entries.map fun (column, value) =>
      [.name column, .text " = ", .param value])
    ++ wherePieces none s.conditions ++ [.text " RETURNING *"]))

/-- A DELETE of matching rows. -/
structure Deletion where
  table : String
  conditions : List Condition

/-- The statement with its bound values. -/
def Deletion.render (s : Deletion) : Query :=
  .ofPieces (.text "DELETE FROM " :: .name s.table :: wherePieces none s.conditions
    ++ [.text " RETURNING *"])

/-- The number of matching rows, as column `count`. -/
structure RowCount where
  table : String
  conditions : List Condition

/-- The statement with its bound values. -/
def RowCount.render (s : RowCount) : Query :=
  .ofPieces (.text "SELECT count(*) AS \"count\" FROM " :: .name s.table
    :: wherePieces none s.conditions)

/-- Whether there are matching rows, as column `exists`. -/
structure RowProbe where
  table : String
  conditions : List Condition

/-- The statement with its bound values. -/
def RowProbe.render (s : RowProbe) : Query :=
  .ofPieces (.text "SELECT EXISTS (SELECT 1 FROM " :: .name s.table
    :: wherePieces none s.conditions ++ [.text ") AS \"exists\""])

end EagerLoad.Sql
