import EagerLoad.Plan.Alias
import EagerLoad.Plan.Basic
import EagerLoad.Plan.Request
import EagerLoad.Schema.Path

/-!
# Compiling requests

Each requested relation is resolved to its shortest path from the root, and the paths are walked hop by
hop. A hop whose target entity is loaded already continues from the node that loads it, so no entity is
loaded twice. Any other hop attaches a node:

* to one target by an outer join;
* to many targets by a sub-select for each parent if there is a bound, else by a batch;
* to many targets of the root's own type by a self join if the request gives a key for it.
-/

namespace EagerLoad

open Sql

/-- What is noted while nodes are attached. -/
structure Notes where
  /-- For each node, in order of number, the numbers of the nodes attached to it. -/
  children : List (List Nat)
  /-- The entities reached so far, each with the node that loads it. -/
  visited : List (Nat × Node)
  /-- Whether a join of the primary statement may return several rows for one root. -/
  multipliesRows : Bool

namespace Notes

/-- Note a node that loads an entity which was not reached before. -/
def visit (notes : Notes) (n : Node) : Notes :=
  { notes with
    children := (match n.parent with
      | some parent => notes.children.modify parent (· ++ [n.id])
      | none => notes.children) ++ [[]]
    visited := notes.visited ++ [(n.entity, n)] }

@[simp] theorem visited_visit (notes : Notes) (n : Node) :
    (notes.visit n).visited = notes.visited ++ [(n.entity, n)] :=
  rfl

@[simp] theorem multipliesRows_visit (notes : Notes) (n : Node) :
    (notes.visit n).multipliesRows = notes.multipliesRows :=
  rfl

/-- Note a join of a statement that may return several rows for one parent. -/
def multiply (notes : Notes) : RowSource → Notes
  | .primary => { notes with multipliesRows := true }
  | .batch _ => notes

@[simp] theorem children_multiply (notes : Notes) (source : RowSource) :
    (notes.multiply source).children = notes.children := by
  cases source <;> rfl

@[simp] theorem visited_multiply (notes : Notes) (source : RowSource) :
    (notes.multiply source).visited = notes.visited := by
  cases source <;> rfl

@[simp] theorem multipliesRows_multiply (notes : Notes) (source : RowSource) :
    (notes.multiply source).multipliesRows = (notes.multipliesRows || source = .primary) := by
  cases source <;> simp [multiply]

end Notes

/-- A plan under construction. -/
structure Draft where
  aliases : AliasSupply
  root : Node
  /-- The nodes attached so far. -/
  others : List Node
  primary : Select
  batches : List Batch
  notes : Notes

namespace Draft

/-- Change the statement of a source. -/
def modify (d : Draft) (source : RowSource) (change : Select → Select) : Draft :=
  match source with
  | .primary => { d with primary := change d.primary }
  | .batch index =>
    { d with batches := d.batches.modify index fun b => { b with statement := change b.statement } }

/-- Make a node the one that a batch loads, if it is read from one. -/
def entrust (d : Draft) (n : Node) : Draft :=
  match n.source with
  | .primary => d
  | .batch index =>
    { d with batches := d.batches.modify index fun b => { b with node := n.id } }

/-- The node below the root that loads an entity. -/
def loading? (d : Draft) (entity : Nat) : Option Node :=
  d.notes.visited.lookup entity

end Draft

/-- The columns of an alias, each under its label. -/
def labelledColumns (tableAlias : String) (columns : List String) : List Projection :=
  columns.map fun column => .column (.of tableAlias column) (some (columnLabel tableAlias column))

/-- Equality of each pair of a join, between two aliases. -/
def pairsEqual (pairs : JoinPairs) (left right : String) : Condition :=
  .all (pairs.map fun (l, r) => .columnsEqual (.of left l) (.of right r))

/-- Fail unless the entity has the column. -/
def Entity.requireColumn (e : Entity) (column : String) : Except Error Unit :=
  if e.hasColumn column then .ok () else .error (QueryError.unknownColumn e.name column)

/-- The ordering of a collection; without one, descending on the primary key. -/
def Entity.collectionOrder (e : Entity) (tableAlias : String) :
    List SortKey → Except Error (List (Column × Direction))
  | [] => .ok [(.of tableAlias e.primaryKey, .descending)]
  | ordering => do
    ordering.forM fun o => e.requireColumn o.column
    return orderingOn tableAlias ordering

/-- Add a join to the statement of a source, with the columns that it brings in. -/
def Sql.Select.bringIn (joins : List Join) (tableAlias : String) (columns : List String) (s : Select) :
    Select :=
  { s with
    joins := s.joins ++ joins
    projections := s.projections ++ labelledColumns tableAlias columns }

/-- A hop to be attached under a parent. -/
structure Hop where
  parent : Node
  /-- The entity that the parent loads. -/
  parentEntity : Entity
  /-- The position of the relation. -/
  id : Nat
  name : String
  cardinality : Cardinality
  join : JoinPairs
  junction : Option Junction
  target : Entity
  /-- The position of the target. -/
  targetId : Nat
  /-- The condition on targets that the request gives for the relation's name. -/
  adjustment : Option Condition

/-- How a hop was attached. -/
structure Attachment where
  strategy : Strategy
  source : RowSource
  tableAlias : String
  draft : Draft

namespace Hop

/-- A condition narrowed by the adjustment, whose columns belong to `alias`. -/
def adjusted (h : Hop) (tableAlias : String) (condition : Condition) : Condition :=
  match h.adjustment with
  | some adjustment => condition.both (adjustment.qualified tableAlias)
  | none => condition

/-- The adjustment as a list of conditions on `alias`. -/
def adjustments (h : Hop) (tableAlias : String) : List Condition :=
  (h.adjustment.map (·.qualified tableAlias)).toList

/-- Attach by an outer join in the parent's statement, through the junction if there is one. -/
def joinDirect (h : Hop) (d : Draft) : Attachment :=
  match h.junction with
  | some junction =>
    let (middle, aliases) := d.aliases.take junction.table
    let (tableAlias, aliases) := aliases.take h.target.table
    let joins : List Join :=
      [⟨.left, .table junction.table, middle, pairsEqual h.join h.parent.tableAlias middle⟩,
        ⟨.left, .table h.target.table, tableAlias,
          h.adjusted tableAlias (pairsEqual junction.target middle tableAlias)⟩]
    ⟨.joined, h.parent.source, tableAlias, { d with aliases }.modify h.parent.source
      (Select.bringIn joins tableAlias h.target.columns)⟩
  | none =>
    let (tableAlias, aliases) := d.aliases.take h.target.table
    let joins : List Join :=
      [⟨.left, .table h.target.table, tableAlias,
        h.adjusted tableAlias (pairsEqual h.join h.parent.tableAlias tableAlias)⟩]
    ⟨.joined, h.parent.source, tableAlias, { d with aliases }.modify h.parent.source
      (Select.bringIn joins tableAlias h.target.columns)⟩

/-- Attach the root's own type by an inner join of its table. The parent's column is the first column
of the ordering, else the parent's primary key, and equals `selfKey`. -/
def joinSelf (h : Hop) (selfKey : String) (ordering : List SortKey) (d : Draft) :
    Except Error Attachment := do
  let column := match ordering with
    | first :: _ => first.column
    | [] => h.parentEntity.primaryKey
  h.parentEntity.requireColumn column
  let (tableAlias, aliases) := d.aliases.take h.target.table
  let on := h.adjusted tableAlias
    (.columnsEqual (.of h.parent.tableAlias column) (.of tableAlias selfKey))
  let notes := d.notes.multiply h.parent.source
  return ⟨.selfAliased, h.parent.source, tableAlias, { d with aliases, notes }.modify h.parent.source
    (Select.bringIn [⟨.inner, .table h.target.table, tableAlias, on⟩] tableAlias h.target.columns)⟩

/-- Attach by a sub-select of the first `limit` targets for each parent. -/
def joinLateral (h : Hop) (limit : Nat) (ordering : List SortKey) (d : Draft) :
    Except Error Attachment := do
  let (inner, aliases) := d.aliases.take h.target.table
  let (joins, linked, aliases) : List Join × Condition × AliasSupply :=
    match h.junction with
    | some junction =>
      let (middle, aliases) := aliases.take junction.table
      ([⟨.inner, .table junction.table, middle, pairsEqual junction.target middle inner⟩],
        pairsEqual h.join h.parent.tableAlias middle, aliases)
    | none => ([], pairsEqual h.join h.parent.tableAlias inner, aliases)
  let order ← h.target.collectionOrder inner ordering
  let (tableAlias, aliases) := aliases.take h.target.table
  let sub : Select :=
    { source := .table h.target.table inner
      projections := h.target.columns.map fun column => .column (.of inner column) none
      joins
      conditions := linked :: h.adjustments inner
      ordering := order
      limit := some limit }
  let notes := d.notes.multiply h.parent.source
  return ⟨.boundedLateral, h.parent.source, tableAlias, { d with aliases, notes }.modify h.parent.source
    (Select.bringIn [⟨.left, .lateral sub, tableAlias, .literal true⟩] tableAlias h.target.columns)⟩

/-- Attach by a secondary statement for all parents. Its first columns are the link, under labels of
their own. -/
def loadBatch (h : Hop) (ordering : List SortKey) (d : Draft) : Except Error Attachment := do
  let (tableAlias, aliases) := d.aliases.take h.target.table
  let (joins, linkAlias, aliases) : List Join × String × AliasSupply :=
    match h.junction with
    | some junction =>
      let (middle, aliases) := aliases.take junction.table
      ([⟨.inner, .table junction.table, middle, pairsEqual junction.target middle tableAlias⟩],
        middle, aliases)
    | none => ([], tableAlias, aliases)
  let link := h.join.right.map (Column.of linkAlias)
  let linkLabels := (List.range link.length).map fun i => columnLabel tableAlias s!"__link{i}"
  let order ← if ordering.isEmpty then pure [] else h.target.collectionOrder tableAlias ordering
  let batch : Batch :=
    { node := d.others.length + 1
      statement :=
        { source := .table h.target.table tableAlias
          projections := (link.zip linkLabels).map (fun (column, label) => .column column (some label))
            ++ labelledColumns tableAlias h.target.columns
          joins
          conditions := h.adjustments tableAlias
          ordering := order }
      parentColumns := h.join.left
      link, linkLabels }
  return ⟨.batched, .batch d.batches.length, tableAlias,
    { d with aliases, batches := d.batches ++ [batch] }⟩

/-- Attach by the strategy that the request and the relation call for. -/
def place (h : Hop) (request : Request) (d : Draft) : Except Error Attachment :=
  match h.cardinality with
  | .one => .ok (h.joinDirect d)
  | .many =>
    match request.selfKey, request.limit with
    | some selfKey, limit =>
      if h.targetId = d.root.entity then h.joinSelf selfKey request.ordering d
      else match limit with
        | some limit => h.joinLateral limit request.ordering d
        | none => h.loadBatch request.ordering d
    | none, some limit => h.joinLateral limit request.ordering d
    | none, none => h.loadBatch request.ordering d

/-- Attach a node for the hop. -/
def attach (h : Hop) (request : Request) (d : Draft) : Except Error (Node × Draft) := do
  let placed ← h.place request d
  let node : Node :=
    { id := d.others.length + 1
      name := h.name
      relation := some h.id
      entity := h.targetId
      parent := some h.parent.id
      cardinality := h.cardinality
      strategy := placed.strategy
      source := placed.source
      tableAlias := placed.tableAlias
      primaryKey := h.target.primaryKey
      columns := h.target.columns }
  let draft : Draft :=
    { placed.draft with
      others := placed.draft.others ++ [node]
      notes := placed.draft.notes.visit node }
  return (node, draft.entrust node)

end Hop

namespace Schema

variable (s : Schema)

/-- The hop along a relation from a node. -/
def hop (request : Request) (parent : Node) (id : s.RelationId) : Hop :=
  let relation := s.relation id
  { parent
    parentEntity := s.entity relation.source
    id := id
    name := relation.name
    cardinality := relation.cardinality
    join := relation.join
    junction := relation.junction
    target := s.entity relation.target
    targetId := relation.target
    adjustment := request.adjustments.get? relation.name }

/-- Walk a path from a node, attaching what is not loaded yet. -/
def walk (request : Request) (current : Node) (d : Draft) : List s.RelationId → Except Error Draft
  | [] => .ok d
  | id :: rest =>
    match d.loading? (s.relation id).target with
    | some node => walk request node d rest
    | none => do
      let (node, d) ← (s.hop request current id).attach request d
      walk request node d rest

/-- The draft that loads an entity alone. -/
def rootDraft (id : s.EntityId) : Draft :=
  let entity := s.entity id
  let (tableAlias, aliases) := AliasSupply.fresh.take entity.table
  { aliases
    root :=
      { id := 0
        name := entity.name
        relation := none
        entity := id
        parent := none
        cardinality := .one
        strategy := .root
        source := .primary
        tableAlias
        primaryKey := entity.primaryKey
        columns := entity.columns }
    others := []
    primary :=
      { source := .table entity.table tableAlias
        projections := labelledColumns tableAlias entity.columns }
    batches := []
    notes := ⟨[[]], [], false⟩ }

/-- Compile a request into a plan. -/
def compile (request : Request) : Except Error Plan := do
  let id ← s.entityNamed request.model
  let entity := s.entity id
  request.selfKey.forM entity.requireColumn
  let draft ← request.relationNames.foldlM
    (fun d name => s.walk request d.root d (s.path id name)) (s.rootDraft id)
  return ⟨draft.root, draft.others, draft.notes.children, entity.table, draft.primary, draft.batches,
    draft.notes.multipliesRows⟩

end Schema

end EagerLoad
