import EagerLoad.Schema.Entity
import EagerLoad.Sql.Select

/-!
# Load plans

A plan is a primary statement, secondary statements for whole collections, and the tree of nodes that
says which result columns belong to which record. Nodes are numbered in the order in which they were
attached; the root has number 0.
-/

namespace EagerLoad

open Sql

/-- How the records of a node reach the result. -/
inductive Strategy where
  /-- The queried entity itself. -/
  | root
  /-- An outer join, read from the joined row. -/
  | joined
  /-- An ordered and bounded sub-select for each parent. -/
  | boundedLateral
  /-- A join of the root's own table under another alias. -/
  | selfAliased
  /-- A statement of its own, over the keys of all parents. -/
  | batched
  deriving DecidableEq

/-- The statement from which a node is read. -/
inductive RowSource where
  | primary
  /-- A secondary statement, by position. -/
  | batch (index : Nat)
  deriving DecidableEq

/-- The result label of a column of an alias. -/
def columnLabel (tableAlias column : String) : String :=
  tableAlias ++ "." ++ column

/-- An entity as it is loaded at one place of a plan. -/
structure Node where
  id : Nat
  /-- The relation's name; the entity's name at the root. -/
  name : String
  /-- The relation that leads here from the parent. -/
  relation : Option Nat
  entity : Nat
  parent : Option Nat
  cardinality : Cardinality
  strategy : Strategy
  source : RowSource
  /-- The qualifier of the node's columns in its statement. -/
  tableAlias : String
  primaryKey : String
  columns : List String
  deriving DecidableEq

/-- The result label of a column of the node. -/
def Node.label (n : Node) (column : String) : String :=
  columnLabel n.tableAlias column

/-- A secondary statement that loads a collection for all parents at once. -/
structure Batch where
  /-- The number of the node whose records its rows are read into: of the nodes that are read from the
  statement, the one attached last. -/
  node : Nat
  /-- The statement before it is narrowed to parents. -/
  statement : Select
  /-- The columns of the parent whose values select the targets. -/
  parentColumns : List String
  /-- The columns of the statement compared with those values. -/
  link : List Column
  /-- The result labels of these columns. -/
  linkLabels : List String

/-- Rows whose link equals one of the key tuples. -/
def linkFilter (link : List Column) (keys : List (List Value)) : Condition :=
  match link with
  | [column] => .inList column (keys.filterMap List.head?) false
  | columns => .or (keys.map fun key =>
      .all ((columns.zip key).map fun (column, value) => .compare column .equal value))

/-- The statement narrowed to the targets of parents with these key tuples. -/
def Batch.forParents (b : Batch) (keys : List (List Value)) : Select :=
  b.statement.filtered (linkFilter b.link keys)

/-- A compiled plan. -/
structure Plan where
  root : Node
  /-- The nodes below the root, in order of number. -/
  others : List Node
  /-- For each node, in order of number, the numbers of the nodes attached to it. -/
  attached : List (List Nat)
  rootTable : String
  primary : Select
  batches : List Batch
  /-- Whether the primary statement may return several rows for one root. -/
  multipliesRows : Bool

namespace Plan

/-- Every node, in order of number. -/
def nodes (p : Plan) : List Node :=
  p.root :: p.others

/-- The numbers of the nodes attached to a node, in order. -/
def children (p : Plan) (id : Nat) : List Nat :=
  p.attached[id]?.getD []

/-- The first node below the root that loads a relation of this name. -/
def find? (p : Plan) (relation : String) : Option Node :=
  p.others.find? (·.name == relation)

end Plan

/-- Orderings on columns of one alias. -/
def orderingOn (tableAlias : String) (ordering : List SortKey) : List (Column × Direction) :=
  ordering.map fun o => (.of tableAlias o.column, o.direction)

/-- The primary statement for the root rows that satisfy `predicates`, ordered and cut to a page.

When joins multiply rows, predicates and page apply to the root's table in a derived table, so that a
page counts roots; the ordering is then repeated outside. -/
def Plan.selectFor (p : Plan) (predicates : List Condition) (ordering : List SortKey)
    (limit offset : Option Nat) : Select :=
  let tableAlias := p.root.tableAlias
  let conditions := Condition.qualifiedAll tableAlias predicates
  let order := orderingOn tableAlias ordering
  if p.multipliesRows && (limit.isSome || offset.isSome) then
    let page : Select :=
      { source := .table p.rootTable tableAlias, projections := [.everything tableAlias], conditions,
        ordering := order, limit, offset }
    { p.primary with
      source := .derived page tableAlias
      ordering := p.primary.ordering ++ order }
  else
    { p.primary with
      conditions := p.primary.conditions ++ conditions
      ordering := p.primary.ordering ++ order
      limit, offset }

end EagerLoad
