import EagerLoad.Description
import EagerLoad.Hydration.Load
import EagerLoad.Plan.Compile
import EagerLoad.Repository.Integrity
import EagerLoad.Repository.Outcome
import EagerLoad.Sql.Write

/-!
# Repositories

A repository reads and writes the records of one entity inside a transaction of the caller's. Columns
are checked against the entity before anything is put to the transaction, and the constraint violations
of writes are translated. Records are returned as JSON objects; a row that cannot be decoded is an error
that is not translated.
-/

namespace EagerLoad

open Sql

/-- Ordering and window of a listing. -/
structure Page where
  /-- Without one, `created_at` ascending if the entity has it, else the primary key. -/
  ordering : List SortKey
  offset : Nat
  limit : Nat

/-- The first ten records. -/
def Page.first : Page := ⟨[], 0, 10⟩

/-- A repository of one entity. -/
structure Repository where
  entity : Entity
  uniques : Uniques

/-- The repository of the entity named `model`. -/
def Schema.repository (s : Schema) (model : String) : Except Error Repository := do
  let id ← s.entityNamed model
  return ⟨s.entity id, .none⟩

namespace Repository

variable (r : Repository)

/-- Fail on the first column that the entity does not have. -/
def checkColumns (columns : List String) : Except Error Unit :=
  match columns.find? fun column => !r.entity.hasColumn column with
  | some column => .error (QueryError.unknownColumn r.entity.name column)
  | none => .ok ()

/-- Columns are refused with the first one that the entity does not have. -/
theorem checkColumns_cases (columns : List String) :
    (r.checkColumns columns = .ok () ∧ ∀ column ∈ columns, r.entity.hasColumn column = true) ∨
      ∃ column ∈ columns, r.entity.hasColumn column = false ∧
        r.checkColumns columns = .error (QueryError.unknownColumn r.entity.name column) := by
  unfold checkColumns
  cases hfind : columns.find? fun column => !r.entity.hasColumn column with
  | none =>
    refine .inl ⟨rfl, fun column hcolumn => ?_⟩
    simpa using List.find?_eq_none.mp hfind column hcolumn
  | some column =>
    exact .inr ⟨column, List.mem_of_find?_eq_some hfind, by simpa using List.find?_some hfind, rfl⟩

theorem checkColumns_append (first second : List String) :
    r.checkColumns (first ++ second) = r.checkColumns first >>= fun _ => r.checkColumns second := by
  unfold checkColumns
  rw [List.find?_append]
  cases first.find? fun column => !r.entity.hasColumn column <;> rfl

/-- Fail unless the plan's root is the repository's entity. -/
def checkPlan (plan : Plan) : Except Error Unit :=
  if plan.root.name = r.entity.name then .ok ()
  else .error (.invalidParams
    s!"plan for '{plan.root.name}' used with repository of '{r.entity.name}'")

/-- A statement that could be built, or the error of one that could not. -/
def built (query : Except QueryError Query) : Except Error Query :=
  match query with
  | .ok query => .ok query
  | .error e => .error e

/-- Put a writing statement for one record. -/
def writeOne (query : Query) : Transaction (Option Json) := do
  let row ← (Transaction.ask .fetchOptional query).mapError r.uniques.translate
  Transaction.ofExcept (row.mapM Row.toJson)

/-- Put a writing statement for several records. -/
def writeAll (query : Query) : Transaction (List Json) := do
  let rows ← (Transaction.ask .fetchAll query).mapError r.uniques.translate
  Transaction.ofExcept (rows.mapM Row.toJson)

/-- Insert a record. -/
def insert (values : Values) : Transaction (Outcome Json) := do
  Transaction.ofExcept (r.checkColumns values.keys)
  let query ← Transaction.ofExcept (built (Insertion.mk r.entity.table [values]).render)
  return .of .create (← r.writeOne query)

/-- Insert several records by one statement. -/
def insertMany (rows : List Values) : Transaction (List Json) := do
  if rows.isEmpty then return []
  Transaction.ofExcept (rows.forM fun row => r.checkColumns row.keys)
  let query ← Transaction.ofExcept (built (Insertion.mk r.entity.table rows).render)
  r.writeAll query

/-- The statement for records without relations. -/
def bareSelect (predicates : List Condition) (ordering : List SortKey) (limit offset : Option Nat) :
    Select :=
  let tableAlias := (AliasSupply.fresh.take r.entity.table).1
  { source := .table r.entity.table tableAlias
    projections := [.everything tableAlias]
    conditions := predicates
    ordering := ordering.map fun o => (.bare o.column, o.direction)
    limit, offset }

/-- The first record that satisfies the predicates, with the relations of the plan if there is one. -/
def select (predicates : List Condition) : Option Plan → Transaction (Outcome Json)
  | some plan => do
    Transaction.ofExcept (r.checkPlan plan)
    let records ← plan.load (plan.selectFor predicates [] (some 1) none)
    return .of .select records.head?
  | none => do
    let row ← Transaction.ask .fetchOptional (r.bareSelect predicates [] (some 1) none).render
    return .of .select (← Transaction.ofExcept (row.mapM Row.toJson))

/-- The number of records that satisfy the predicates. -/
def count (predicates : List Condition) : Transaction Int := do
  let some row ← Transaction.ask .fetchOptional (RowCount.mk r.entity.table predicates).render
    | return 0
  match ← Transaction.ofExcept (row.named "count") with
  | .int64 n => return n.toInt
  | .int32 n => return n.toInt
  | other => Transaction.ofExcept (.error (.query ("count returned " ++ other.describe.text)))

/-- The ordering of a page, after a check of its columns. -/
def pageOrdering (page : Page) : Except Error (List SortKey) :=
  match page.ordering with
  | [] =>
    let column := if r.entity.hasColumn "created_at" then "created_at" else r.entity.primaryKey
    .ok [⟨column, .ascending⟩]
  | ordering => do
    r.checkColumns (ordering.map (·.column))
    return ordering

/-- The number of records that satisfy the predicates, and a page of them. Nothing more is asked when
there are none. -/
def selectMany (predicates : List Condition) (plan : Option Plan) (page : Page) :
    Transaction (Int × List Json) := do
  let total ← r.count predicates
  if total ≤ 0 then return (0, [])
  let ordering ← Transaction.ofExcept (r.pageOrdering page)
  match plan with
  | some plan =>
    Transaction.ofExcept (r.checkPlan plan)
    let records ← plan.load (plan.selectFor predicates ordering (some page.limit) (some page.offset))
    return (total, records)
  | none =>
    let query := (r.bareSelect predicates ordering (some page.limit) (some page.offset)).render
    let rows ← Transaction.ask .fetchAll query
    return (total, ← Transaction.ofExcept (rows.mapM Row.toJson))

/-- Change the records that satisfy the predicates and return one of them. -/
def update (predicates : List Condition) (values : Values) : Transaction (Outcome Json) := do
  Transaction.ofExcept (r.checkColumns values.keys)
  let query ← Transaction.ofExcept (built (Update.mk r.entity.table values predicates).render)
  return .of .update (← r.writeOne query)

/-- The statement that changes one record by its primary key. -/
def updateByKey (row : Values) : Except Error Query := do
  let pk := r.entity.primaryKey
  let some key := (row.get? pk).filter fun value => !value.isNull
    | throw (.validation s!"update_many row is missing '{pk}'")
  let changed := row.erase pk
  r.checkColumns changed.keys
  built (Update.mk r.entity.table changed [.compare (.bare pk) .equal key]).render

/-- Change each record by its primary key, one after the other; the result is how many rows changed, modulo
`2 ^ 64`. -/
def updateMany : List Values → Transaction UInt64
  | [] => return 0
  | row :: rest => do
    let query ← Transaction.ofExcept (r.updateByKey row)
    let affected ← (Transaction.ask .execute query).mapError r.uniques.translate
    return affected + (← updateMany rest)

/-- Remove the records that satisfy the predicates and return one of them. -/
def delete (predicates : List Condition) : Transaction (Outcome Json) := do
  let row ← Transaction.ask .fetchOptional (Deletion.mk r.entity.table predicates).render
  return .of .delete (← Transaction.ofExcept (row.mapM Row.toJson))

/-- Insert a record, or update the one in conflict over some columns. -/
def upsert (conflict : List String) (values : Values) : Transaction (Outcome Json) := do
  Transaction.ofExcept (r.checkColumns values.keys)
  Transaction.ofExcept (r.checkColumns conflict)
  let query ← Transaction.ofExcept (built (Upsert.mk ⟨r.entity.table, [values]⟩ conflict).render)
  return .of .create (← r.writeOne query)

/-- Insert several records by one statement, or update those in conflict over some columns. -/
def upsertMany (conflict : List String) (rows : List Values) : Transaction (List Json) := do
  if rows.isEmpty then return []
  Transaction.ofExcept (r.checkColumns conflict)
  Transaction.ofExcept (rows.forM fun row => r.checkColumns row.keys)
  let query ← Transaction.ofExcept (built (Upsert.mk ⟨r.entity.table, rows⟩ conflict).render)
  r.writeAll query

/-- Whether a record satisfies the predicates. -/
def existing (predicates : List Condition) : Transaction Bool := do
  let some row ← Transaction.ask .fetchOptional (RowProbe.mk r.entity.table predicates).render
    | return false
  match ← Transaction.ofExcept (row.named "exists") with
  | .bool b => return b
  | _ => return false

end Repository

end EagerLoad
