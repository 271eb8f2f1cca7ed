import EagerLoad.Sql.Query

/-!
# Columns and orderings

A column without a qualifier belongs to the alias of the statement in which it is written.
-/

namespace EagerLoad.Sql

/-- A column, qualified by a table alias or not. -/
structure Column where
  qualifier : Option String
  name : String
deriving DecidableEq

namespace Column

/-- The column `name` of `alias`. -/
def of (tableAlias name : String) : Column :=
  ⟨some tableAlias, name⟩

/-- The column `name` of whatever statement it is written in. -/
def bare (name : String) : Column :=
  ⟨none, name⟩

/-- Qualify the column with `alias` unless it has a qualifier. -/
def qualified (tableAlias : String) (c : Column) : Column :=
  ⟨some (c.qualifier.getD tableAlias), c.name⟩

/-- The column as written where unqualified columns belong to `scope`. -/
def pieces (scope : Option String) (c : Column) : List Piece :=
  match c.qualifier.or scope with
  | some tableAlias => [.name tableAlias, .text ".", .name c.name]
  | none => [.name c.name]

end Column

/-- The direction of an ordering. -/
inductive Direction where
  | ascending
  | descending
deriving DecidableEq

/-- The keyword of a direction. -/
def Direction.keyword : Direction → String
  | .ascending => "ASC"
  | .descending => "DESC"

/-- An ordering on a column of the entity to which it is applied. -/
structure SortKey where
  column : String
  direction : Direction
deriving DecidableEq

/-- A bare column name orders descending. -/
def SortKey.ofName (column : String) : SortKey :=
  ⟨column, .descending⟩

end EagerLoad.Sql
