import EagerLoad.Proofs.Hydration.Grouping
import EagerLoad.Proofs.Sql.Evaluation

/-!
# What eager loading is meant to return

The records of root rows, straight from the tables. A row leads along a relation to the target rows that
the relation's join links to it and that satisfy its adjustment; a record has the columns of its row and,
for each child of its node, what the rows are to which the row leads.
-/

namespace EagerLoad

open Sql

/-- The text by which a row is told from others: the identity of its primary key. -/
def Entity.identity (e : Entity) (row : Tuple) : String :=
  (row.cell e.primaryKey).identity

/-- Rows of an entity, each once: of rows with the same key the first. -/
def Entity.once (e : Entity) (rows : List Tuple) : List Tuple :=
  rows.eraseDupsBy fun a b => e.identity a == e.identity b

/-- Whether one row comes before or with another in an ordering. -/
def Database.rowLe (db : Database) (ordering : List SortKey) (a b : Tuple) : Bool :=
  db.lexLe (ordering.map fun o => (o.direction, a.cell o.column, b.cell o.column))

/-- The ordering of a collection. A bounded one without an ordering is descending on the primary key. -/
def Request.sortKeys (r : Request) (e : Entity) : List SortKey :=
  if r.ordering.isEmpty && r.limit.isSome then [⟨e.primaryKey, .descending⟩] else r.ordering

/-- Whether a target row satisfies the adjustment of the relations of a name. -/
def Request.admits (r : Request) (db : Database) (name : String) (target : Tuple) : Bool :=
  (r.adjustments.get? name).all (db.satisfies target)

namespace Schema

variable (s : Schema) (r : Request) (db : Database) (id : s.RelationId)

/-- The entity to which a relation leads. -/
def target : Entity :=
  s.entity (s.relation id).target

/-- The table to which the join of a relation leads: the junction if there is one. -/
def joinedTable : String :=
  match (s.relation id).junction with
  | some junction => junction.table
  | none => (s.target id).table

/-- The targets that a to-one relation joins to a row, in the order of its joins. -/
def partners (row : Tuple) : List Tuple :=
  let relation := s.relation id
  let joined (pairs : JoinPairs) (left : Tuple) := (db.rows (s.target id).table).filter fun target =>
    db.joined pairs left target && r.admits db relation.name target
  match relation.junction with
  | some junction =>
    ((db.rows junction.table).filter (db.joined relation.join row)).flatMap (joined junction.target)
  | none => joined relation.join row

/-- The targets of a relation in table order, each with what its join is compared with: the rows of the
junction that lead to it, else itself. -/
def ways : List (Tuple × Tuple) :=
  match (s.relation id).junction with
  | some junction => (db.rows (s.target id).table).flatMap fun target =>
    ((db.rows junction.table).filter fun middle => db.joined junction.target middle target).map
      fun middle => (target, middle)
  | none => (db.rows (s.target id).table).map fun target => (target, target)

/-- The targets that a to-many relation links to a row, in table order, once for each way. -/
def members (row : Tuple) : List Tuple :=
  let relation := s.relation id
  ((s.ways db id).filter fun (target, link) =>
    db.joined relation.join row link && r.admits db relation.name target).map (·.1)

/-- The targets of a to-many relation in the order of the request, cut to its bound. -/
def collection (row : Tuple) : List Tuple :=
  let sorted := (s.members r db id row).insertionSort fun a b => db.rowLe (r.sortKeys (s.target id)) a b
  page r.limit none sorted

/-- The target rows to which a row leads along a relation, each once. -/
def targets (row : Tuple) : List Tuple :=
  (s.target id).once <| match (s.relation id).cardinality with
    | .one => s.partners r db id row
    | .many => s.collection r db id row

/-- The rows to which a row leads along the relation of a node. -/
def targetsAt (n : Node) (row : Tuple) : List Tuple :=
  match n.relation with
  | some i => if h : i < s.relations.length then s.targets r db ⟨i, h⟩ row else []
  | none => []

end Schema

/-- The columns of a node in a row of its entity. -/
def Node.columnsOf (n : Node) (row : Tuple) : KeyMap Value :=
  .ofList (n.columns.map fun column => (column, row.cell column))

namespace LoadTree

variable (targets : Node → Tuple → List Tuple)

mutual

/-- The record of a row: its columns, then an entry for each child. -/
def record : LoadTree → Tuple → Json
  | .node n children => fun row =>
    let columns := (n.columnsOf row).entries.map fun (column, value) => (column, value.toJson)
    .object (columns ++ recordEntries children row)

/-- The entries of a record: the records of the rows to which the row leads, or the first one or null. -/
def recordEntries : List LoadTree → Tuple → List (String × Json)
  | [] => fun _ => []
  | tree :: rest => fun row =>
    let loaded := (targets tree.info row).map tree.record
    (tree.info.name, tree.info.cardinality.entry loaded) :: recordEntries rest row

end

theorem recordEntries_eq_map (children : List LoadTree) (row : Tuple) :
    recordEntries targets children row = children.map fun c =>
      (c.info.name, c.info.cardinality.entry ((targets c.info row).map (c.record targets))) := by
  induction children with
  | nil => rfl
  | cons c rest ih =>
    simp only [recordEntries]
    rw [ih, List.map_cons]

end LoadTree

namespace Entity

variable {e : Entity} {rows : List Tuple} {row : Tuple}

theorem once_cons : e.once (row :: rows) =
    row :: e.once (rows.filter fun other => e.identity other ≠ e.identity row) := by
  simp only [once, List.eraseDupsBy_cons]
  congr 2
  apply List.filter_congr
  intro other _
  simp

/-- No row is left that was not there. -/
theorem once_subset : e.once rows ⊆ rows := by
  induction h : rows.length using Nat.strong_induction_on generalizing rows with
  | h n ih =>
    cases rows with
    | nil => exact List.Subset.refl _
    | cons row rest =>
      rw [once_cons]
      refine List.cons_subset_cons _ (List.Subset.trans (ih _ ?_ rfl) (List.filter_subset_self _))
      exact h ▸ Nat.lt_succ_of_le (List.length_filter_le ..)

/-- The rows that are left have the keys that were there, each once. -/
theorem map_identity_once : (e.once rows).map e.identity = (rows.map e.identity).eraseDups := by
  induction h : rows.length using Nat.strong_induction_on generalizing rows with
  | h n ih =>
    cases rows with
    | nil => rfl
    | cons row rest =>
      rw [once_cons, List.map_cons, List.map_cons, List.eraseDups_cons, ih _ _ rfl, List.filter_map]
      · congr 3
        apply List.filter_congr
        intro other _
        rw [Bool.eq_iff_iff]
        simp
      · exact h ▸ Nat.lt_succ_of_le (List.length_filter_le ..)

end Entity

namespace Schema

variable {s : Schema} {r : Request} {db : Database} {id : s.RelationId} {row : Tuple}

/-- A way leads from a row of the table on which the join stands to a row of the target. -/
theorem mem_of_mem_ways {way : Tuple × Tuple} (h : way ∈ s.ways db id) :
    way.1 ∈ db.rows (s.target id).table ∧ way.2 ∈ db.rows (s.joinedTable id) := by
  unfold ways at h
  unfold joinedTable
  cases hj : (s.relation id).junction with
  | some junction =>
    simp only [hj] at h
    obtain ⟨target, htarget, h⟩ := List.mem_flatMap.mp h
    obtain ⟨link, hlink, rfl⟩ := List.mem_map.mp h
    exact ⟨htarget, (List.mem_filter.mp hlink).1⟩
  | none =>
    simp only [hj] at h
    obtain ⟨target, htarget, rfl⟩ := List.mem_map.mp h
    exact ⟨htarget, htarget⟩

/-- Partners are rows of the target. -/
theorem partners_subset (row : Tuple) : s.partners r db id row ⊆ db.rows (s.target id).table := by
  intro target htarget
  unfold partners at htarget
  dsimp only at htarget
  split at htarget
  · obtain ⟨middle, -, htarget⟩ := List.mem_flatMap.mp htarget
    exact (List.mem_filter.mp htarget).1
  · exact (List.mem_filter.mp htarget).1

/-- A collection is made of rows of the target. -/
theorem collection_subset (row : Tuple) : s.collection r db id row ⊆ db.rows (s.target id).table := by
  intro target htarget
  have hmember := (List.mem_insertionSort _).mp (page_subset _ _ _ htarget)
  obtain ⟨way, hway, rfl⟩ := List.mem_map.mp hmember
  exact (mem_of_mem_ways (List.mem_filter.mp hway).1).1

/-- A relation leads to rows of its target. -/
theorem targets_subset (row : Tuple) : s.targets r db id row ⊆ db.rows (s.target id).table := by
  apply List.Subset.trans Entity.once_subset
  cases (s.relation id).cardinality with
  | one => exact partners_subset row
  | many => exact collection_subset row

theorem targetsAt_of_relation {n : Node} (h : n.relation = some id.val) (row : Tuple) :
    s.targetsAt r db n row = s.targets r db id row := by
  simp only [targetsAt, h, id.isLt, dite_true, Fin.eta]

end Schema

/-- Entities are declared with their keys, which are never null in the database and tell rows apart, and
values on the two sides of a join are equal exactly if they have the same identity. -/
structure Schema.Suits (s : Schema) (db : Database) : Prop where
  declared : s.Declared
  key : ∀ e ∈ s.entities, ∀ row ∈ db.rows e.table, row.cell e.primaryKey ≠ .null
  unique : ∀ e ∈ s.entities, ((db.rows e.table).map e.identity).Nodup
  equal : ∀ id : s.RelationId, ∀ pair ∈ (s.relation id).join,
    ∀ left ∈ db.rows (s.entity (s.relation id).source).table, ∀ right ∈ db.rows (s.joinedTable id),
      left.cell pair.1 ≠ .null → right.cell pair.2 ≠ .null →
      (db.compare .equal (left.cell pair.1) (right.cell pair.2) = some true ↔
        (left.cell pair.1).identity = (right.cell pair.2).identity) ∧
      (db.compare .equal (right.cell pair.2) (left.cell pair.1) = some true ↔
        (left.cell pair.1).identity = (right.cell pair.2).identity)

end EagerLoad
