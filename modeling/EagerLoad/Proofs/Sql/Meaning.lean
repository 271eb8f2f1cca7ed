import EagerLoad.Row
import EagerLoad.Sql.Select
import Mathlib.Data.List.Sort

/-!
# What statements mean

The usual list meaning of a statement over a database. The source and the joins are enumerated as nested
loops, a left join keeps what has no match, conditions follow three-valued logic, an ordering is a stable
sort, and a limit takes a prefix. How values compare is up to the database.
-/

namespace EagerLoad.Sql

/-- The truth of a condition; none is unknown. -/
abbrev Truth := Option Bool

namespace Truth

/-- The negation; it is unknown of what is unknown. -/
def not : Truth → Truth :=
  Option.map Bool.not

/-- A conjunction is false if one of its items is, and else unknown if one of them is. -/
def all (items : List Truth) : Truth :=
  if some false ∈ items then some false else if none ∈ items then none else some true

/-- A disjunction is true if one of its items is, and else unknown if one of them is. -/
def any (items : List Truth) : Truth :=
  if some true ∈ items then some true else if none ∈ items then none else some false

theorem all_eq_true {items : List Truth} : all items = some true ↔ ∀ item ∈ items, item = some true := by
  unfold all
  constructor
  · intro h item hitem
    split at h
    · cases h
    · rename_i hfalse
      split at h
      · cases h
      · rename_i hnone
        match item with
        | some true => rfl
        | some false => exact absurd hitem hfalse
        | none => exact absurd hitem hnone
  · intro h
    have hfalse : some false ∉ items := fun hmem => by simpa using h _ hmem
    have hnone : none ∉ items := fun hmem => by simpa using h _ hmem
    rw [if_neg hfalse, if_neg hnone]

theorem any_eq_true {items : List Truth} : any items = some true ↔ some true ∈ items := by
  unfold any
  by_cases h : some true ∈ items
  · simp [h]
  · rw [if_neg h]
    split <;> simp [h]

theorem all_singleton (item : Truth) : all [item] = item := by
  rcases item with _ | _ | _ <;> rfl

theorem any_singleton (item : Truth) : any [item] = item := by
  rcases item with _ | _ | _ <;> rfl

/-- A conjunction of a conjunction and one more item is the conjunction of all the items. -/
theorem all_concat (items : List Truth) (item : Truth) : all [all items, item] = all (items ++ [item]) := by
  unfold all
  by_cases hfalse : some false ∈ items
  · simp [hfalse]
  · by_cases hnone : none ∈ items <;> simp [hfalse, hnone]

end Truth

end EagerLoad.Sql

namespace EagerLoad

open Sql

/-- Values by column, as tables store them and as statements put them together. -/
structure Tuple where
  columns : List (String × Value)

namespace Tuple

/-- The value of a column; null if there is none. -/
def cell (t : Tuple) (column : String) : Value :=
  (t.columns.lookup column).getD .null

/-- Null in every column. -/
def nulls (columns : List String) : Tuple :=
  ⟨columns.map (·, .null)⟩

/-- The values as a result row, of which every column can be decoded. -/
def row (t : Tuple) : Row :=
  .ofValues t.columns

end Tuple

/-- Tables, and how their values compare. -/
structure Database where
  /-- The columns of a table. -/
  columns : String → List String
  /-- The rows of a table, in order. -/
  rows : String → List Tuple
  compare : Comparison → Value → Value → Truth
  /-- A comparison with null is unknown. -/
  compare_null : ∀ operator v, compare operator .null v = none ∧ compare operator v .null = none
  /-- Whether a value comes before or with another in ascending order. -/
  le : Value → Value → Bool
  le_total : ∀ v w, le v w ∨ le w v
  le_trans : ∀ u v w, le u v → le v w → le u w

/-- The rows that are joined so far, each under its alias; the last one comes first. -/
abbrev Scope := List (String × Tuple)

/-- The value of a column of an alias; null if there is none. -/
def Scope.cell (scope : Scope) (tableAlias column : String) : Value :=
  ((scope.lookup tableAlias).map (·.cell column)).getD .null

/-- The value of a column where unqualified columns belong to an alias. -/
def Scope.value (scope : Scope) (tableAlias : String) (c : Column) : Value :=
  scope.cell (c.qualifier.getD tableAlias) c.name

namespace Sql.Condition

mutual

/-- The truth of a condition for the values of columns. -/
def eval (db : Database) (value : Column → Value) : Condition → Truth
  | .compare column operator v =>
    match operator, v.isNull with
    | .equal, true => some (value column).isNull
    | .notEqual, true => some !(value column).isNull
    | _, _ => db.compare operator (value column) v
  | .inList column values negated =>
    let found := Truth.any (values.map fun v => db.compare .equal (value column) v)
    if negated then found.not else found
  | .isNull column negated => some ((value column).isNull != negated)
  | .columnsEqual left right => db.compare .equal (value left) (value right)
  | .and items => .all (evalAll db value items)
  | .or items => .any (evalAll db value items)
  | .not item => (eval db value item).not
  | .literal truth => some truth

/-- The truths of several conditions. -/
def evalAll (db : Database) (value : Column → Value) : List Condition → List Truth
  | [] => []
  | item :: rest => eval db value item :: evalAll db value rest

end

/-- Whether a condition is true. -/
def holds (db : Database) (value : Column → Value) (c : Condition) : Bool :=
  c.eval db value = some true

end Sql.Condition

namespace Database

variable (db : Database)

/-- Whether a sequence of values comes before or with another, each pair in its direction. -/
def lexLe : List (Direction × Value × Value) → Bool
  | [] => true
  | (.ascending, v, w) :: rest => db.le v w && (!db.le w v || lexLe rest)
  | (.descending, v, w) :: rest => db.le w v && (!db.le v w || lexLe rest)

/-- Whether one scope comes before or with another in an ordering. -/
def scopeLe (tableAlias : String) (ordering : List (Column × Direction)) (a b : Scope) : Bool :=
  db.lexLe (ordering.map fun (c, direction) =>
    (direction, a.value tableAlias c, b.value tableAlias c))

end Database

/-- The part of a list that a limit and an offset leave. -/
def page {α : Type} (limit offset : Option Nat) (items : List α) : List α :=
  let rest := items.drop (offset.getD 0)
  match limit with
  | some n => rest.take n
  | none => rest

/-- The columns that a projection selects in a scope. -/
def Sql.Projection.cells (tableAlias : String) (scope : Scope) : Projection → List (String × Value)
  | .column c label => [(label.getD c.name, scope.value tableAlias c)]
  | .everything other => ((scope.lookup other).map (·.columns)).getD []

/-- The row that projections make of a scope; without projections, all columns that the statement itself
has brought in. -/
def Sql.Projection.tuple (tableAlias : String) (own scope : Scope) : List Projection → Tuple
  | [] => ⟨own.reverse.flatMap (·.2.columns)⟩
  | projections => ⟨projections.flatMap (·.cells tableAlias scope)⟩

/-- A scope with each of some rows that satisfy the condition of a join. A left join without such a row
takes `nulls`. -/
def Sql.JoinKind.extend (db : Database) (scopeAlias : String) (kind : JoinKind) (tableAlias : String)
    (on : Condition) (rows : List Tuple) (nulls : Tuple) (scope : Scope) : List Scope :=
  let joined : List Scope := rows.map fun row => (tableAlias, row) :: scope
  let matching := joined.filter fun joined => on.holds db (joined.value scopeAlias)
  match kind, matching with
  | .left, [] => [(tableAlias, nulls) :: scope]
  | _, matching => matching

namespace Sql

mutual

/-- The columns of a statement's rows. -/
def Select.columns (db : Database) : Select → List String
  | ⟨source, projections, joins, _, _, _, _⟩ =>
    let tables := (source.tableAlias, source.columns db) :: Join.allColumns db joins
    if projections.isEmpty then tables.flatMap (·.2)
    else projections.flatMap fun
      | .column c label => [label.getD c.name]
      | .everything other => (tables.lookup other).getD []

/-- The columns of a source. -/
def Source.columns (db : Database) : Source → List String
  | .table table _ => db.columns table
  | .derived query _ => query.columns db

/-- The columns that joins bring in, by alias. -/
def Join.allColumns (db : Database) : List Join → List (String × List String)
  | [] => []
  | ⟨_, target, tableAlias, _⟩ :: rest => (tableAlias, target.columns db) :: Join.allColumns db rest

/-- The columns of what a join brings in. -/
def JoinTarget.columns (db : Database) : JoinTarget → List String
  | .table table => db.columns table
  | .lateral query => query.columns db

end

mutual

/-- The rows of a statement inside a scope. -/
def Select.rowsIn (db : Database) : Select → Scope → List Tuple
  | ⟨source, projections, joins, conditions, ordering, limit, offset⟩ => fun outer =>
    let tableAlias := source.tableAlias
    let joined := (source.rowsIn db outer).flatMap fun row =>
      Join.extendAll db tableAlias joins ((tableAlias, row) :: outer)
    let chosen := joined.filter fun scope =>
      conditions.all fun c => c.holds db (scope.value tableAlias)
    let ordered := chosen.insertionSort fun a b => db.scopeLe tableAlias ordering a b
    (page limit offset ordered).map fun scope =>
      Projection.tuple tableAlias (scope.take (scope.length - outer.length)) scope projections

/-- The rows of a source. -/
def Source.rowsIn (db : Database) : Source → Scope → List Tuple
  | .table table _ => fun _ => db.rows table
  | .derived query _ => fun outer => query.rowsIn db outer

/-- A scope with the rows of joins, one after the other. -/
def Join.extendAll (db : Database) (scopeAlias : String) : List Join → Scope → List Scope
  | [] => fun scope => [scope]
  | ⟨kind, target, tableAlias, on⟩ :: rest => fun scope =>
    (kind.extend db scopeAlias tableAlias on (target.rowsIn db scope) (.nulls (target.columns db))
      scope).flatMap (Join.extendAll db scopeAlias rest)

/-- The rows of what a join brings in. -/
def JoinTarget.rowsIn (db : Database) : JoinTarget → Scope → List Tuple
  | .table table => fun _ => db.rows table
  | .lateral query => fun scope => query.rowsIn db scope

end

/-- The rows that a statement puts together. -/
def Select.tuples (s : Select) (db : Database) : List Tuple :=
  s.rowsIn db []

/-- The rows that come back for a statement. -/
def Select.rows (s : Select) (db : Database) : List Row :=
  (s.tuples db).map Tuple.row

end Sql

end EagerLoad
