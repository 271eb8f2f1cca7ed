import EagerLoad.Sql.Condition

/-!
# SELECT statements

A statement reads from a table or a derived table, joins tables and lateral sub-selects, and may be
nested in others. Unqualified columns of a statement belong to the alias of its source.
-/

namespace EagerLoad.Sql

/-- How rows without a match are joined: not at all, or with nulls. -/
inductive JoinKind where
  | inner
  | left
deriving DecidableEq

/-- The keywords of a join. -/
def JoinKind.keyword : JoinKind → String
  | .inner => "INNER JOIN"
  | .left => "LEFT JOIN"

/-- A selected expression. -/
inductive Projection where
  /-- A column, under a label of its own or not. -/
  | column (column : Column) (label : Option String)
  /-- Every column of an alias. -/
  | everything (tableAlias : String)

mutual

/-- A SELECT statement. -/
structure Select where
  source : Source
  /-- Selected expressions; none select everything. -/
  projections : List Projection := []
  joins : List Join := []
  /-- Conditions that must all hold. -/
  conditions : List Condition := []
  ordering : List (Column × Direction) := []
  limit : Option Nat := none
  offset : Option Nat := none

/-- What a statement reads from. -/
inductive Source where
  | table (table tableAlias : String)
  /-- A sub-select under an alias. -/
  | derived (query : Select) (tableAlias : String)

/-- A join of a statement. -/
structure Join where
  kind : JoinKind
  target : JoinTarget
  tableAlias : String
  on : Condition

/-- What a join brings in. -/
inductive JoinTarget where
  | table (table : String)
  /-- A sub-select evaluated for each row of what stands before it. -/
  | lateral (query : Select)

end

/-- The alias of a source. -/
def Source.tableAlias : Source → String
  | .table _ tableAlias => tableAlias
  | .derived _ tableAlias => tableAlias

namespace Select

/-- The alias to which unqualified columns of the statement belong. -/
def tableAlias (s : Select) : String :=
  s.source.tableAlias

/-- Add a labelled column to the projections. -/
def project (s : Select) (column : Column) (label : Option String) : Select :=
  { s with projections := s.projections ++ [.column column label] }

/-- Add a join after the others. -/
def join (s : Select) (join : Join) : Select :=
  { s with joins := s.joins ++ [join] }

/-- Add a condition. -/
def filtered (s : Select) (condition : Condition) : Select :=
  { s with conditions := s.conditions ++ [condition] }

/-- Add an ordering that counts after the others. -/
def ordered (s : Select) (column : Column) (direction : Direction) : Select :=
  { s with ordering := s.ordering ++ [(column, direction)] }

end Select

/-- A projection as written. -/
def Projection.pieces (scope : Option String) : Projection → List Piece
  | .column c none => c.pieces scope
  | .column c (some label) => c.pieces scope ++ [.text " AS ", .name label]
  | .everything tableAlias => [.name tableAlias, .text ".*"]

/-- The projections as written; none are written as a star. -/
def Projection.listPieces (scope : Option String) : List Projection → List Piece
  | [] => [.text "*"]
  | projections => separated ", " (projections.map (·.pieces scope))

/-- The `ORDER BY` clause; none without orderings. -/
def orderPieces (scope : Option String) : List (Column × Direction) → List Piece
  | [] => []
  | ordering => .text " ORDER BY " :: separated ", " (ordering.map fun (column, direction) =>
      column.pieces scope ++ [.text (" " ++ direction.keyword)])

/-- A clause of a keyword and a number; none without a number. -/
def numberClause (keyword : String) : Option Nat → List Piece
  | some n => [.text (" " ++ keyword ++ " " ++ toString n)]
  | none => []

mutual

/-- The statement as written. -/
def Select.pieces : Select → List Piece
  | ⟨source, projections, joins, conditions, ordering, limit, offset⟩ =>
    let scope := some source.tableAlias
    .text "SELECT " :: Projection.listPieces scope projections
      ++ .text " FROM " :: source.pieces
      ++ Join.listPieces scope joins
      ++ wherePieces scope conditions
      ++ orderPieces scope ordering
      ++ numberClause "LIMIT" limit
      ++ numberClause "OFFSET" offset

/-- A source as written. -/
def Source.pieces : Source → List Piece
  | .table table tableAlias => [.name table, .text " AS ", .name tableAlias]
  | .derived query tableAlias => .text "(" :: query.pieces ++ [.text ") AS ", .name tableAlias]

/-- Joins as written, each after a blank. -/
def Join.listPieces (scope : Option String) : List Join → List Piece
  | [] => []
  | ⟨kind, target, tableAlias, on⟩ :: rest =>
    .text " " :: .text kind.keyword :: .text " " :: target.pieces
      ++ .text " AS " :: .name tableAlias :: .text " ON " :: on.pieces scope
      ++ Join.listPieces scope rest

/-- The target of a join as written. -/
def JoinTarget.pieces : JoinTarget → List Piece
  | .table table => [.name table]
  | .lateral query => .text "LATERAL (" :: query.pieces ++ [.text ")"]

end

/-- The statement with its bound values. -/
def Select.render (s : Select) : Query :=
  .ofPieces s.pieces

end EagerLoad.Sql
