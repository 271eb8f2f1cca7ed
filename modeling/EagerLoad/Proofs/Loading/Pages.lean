import EagerLoad.Proofs.Loading.Batches
import EagerLoad.Proofs.Plan.Selected
import EagerLoad.Proofs.Sql.Blocks

/-!
# Pages of root rows

The rows of the primary statement come in blocks, one for each root row that is selected, with a row for
every scope to which the joins extend the root row. This holds for every page where the page is cut inside
a derived table. Where it is cut outside, it holds if each root row is extended to a single scope.
-/

namespace EagerLoad

open Sql

variable {s : Schema} {db : Database} {root : s.EntityId} {d : Draft} {p : Plan}
  {predicates : List Condition} {ordering : List SortKey} {limit offset : Option Nat} {row : Tuple}

/-- The plain selection of rows of the root's table, without anything joined. -/
def Plan.rootSelect (p : Plan) (predicates : List Condition) (ordering : List SortKey)
    (limit offset : Option Nat) : Select :=
  { source := .table p.rootTable p.root.tableAlias
    conditions := predicates
    ordering := ordering.map fun o => (.bare o.column, o.direction)
    limit, offset }

namespace Sql.Select

/-- The scopes that a statement goes through: the rows of its source with all that is joined to them. -/
def scopes (q : Select) (db : Database) : List Scope :=
  (q.source.rowsIn db []).flatMap fun row =>
    Join.extendAll db q.source.tableAlias q.joins [(q.source.tableAlias, row)]

/-- What a statement puts together: its scopes, picked, sorted and cut to a page. -/
theorem tuples_eq (q : Select) : q.tuples db =
    (page q.limit q.offset (((q.scopes db).filter fun scope => q.conditions.all fun c =>
      c.holds db (scope.value q.source.tableAlias)).insertionSort fun a b =>
        db.scopeLe q.source.tableAlias q.ordering a b)).map q.tupleOf := by
  obtain ⟨source, projections, joins, conditions, ordering, limit, offset⟩ := q
  simp only [tuples, rowsIn, scopes, List.length_nil, Nat.sub_zero, List.take_length]
  rfl

theorem rows_eq (q : Select) : q.rows db =
    (page q.limit q.offset (((q.scopes db).filter fun scope => q.conditions.all fun c =>
      c.holds db (scope.value q.source.tableAlias)).insertionSort fun a b =>
        db.scopeLe q.source.tableAlias q.ordering a b)).map q.rowOf := by
  rw [rows, tuples_eq, List.map_map]
  rfl

end Sql.Select

namespace Database

instance (ordering : List SortKey) :
    IsTrans Tuple fun a b => db.rowLe ordering a b = true :=
  ⟨fun _ _ _ => rowLe_trans⟩

instance (ordering : List SortKey) : Std.Total fun a b => db.rowLe ordering a b = true :=
  ⟨rowLe_total db ordering⟩

end Database

/-- A scope has the cells of a row for an alias. -/
def Scope.Has (scope : Scope) (tableAlias : String) (row : Tuple) : Prop :=
  ∀ column, scope.cell tableAlias column = row.cell column

/-- An ordering on columns of an alias orders scopes as the rows that they have for it. -/
theorem Database.scopeLe_map {tableAlias : String} {column : SortKey → Column} {scope scope' : Scope}
    {row row' : Tuple}
    (hcolumn : ∀ o, ∀ scope : Scope, scope.value tableAlias (column o) = scope.cell tableAlias o.column)
    (h : scope.Has tableAlias row) (h' : scope'.Has tableAlias row') :
    db.scopeLe tableAlias (ordering.map fun o => (column o, o.direction)) scope scope' =
      db.rowLe ordering row row' := by
  simp only [scopeLe, rowLe, List.map_map, Function.comp_def, hcolumn, h _, h' _]

/-- The conditions of a statement pick rows of its source, and its ordering sorts them. -/
structure Sql.Select.Picks (q : Select) (db : Database) (test : Tuple → Bool) (ordering : List SortKey) :
    Prop where
  own : q.source.tableAlias ∉ q.joins.map (·.tableAlias)
  conditions : ∀ scope row, Scope.Has scope q.source.tableAlias row →
    (q.conditions.all fun c => c.holds db (scope.value q.source.tableAlias)) = test row
  ordering : ∀ scope scope' row row', Scope.Has scope q.source.tableAlias row →
    Scope.Has scope' q.source.tableAlias row' →
    db.scopeLe q.source.tableAlias q.ordering scope scope' = db.rowLe ordering row row'

/-- The rows of a statement come in blocks, one for each row of its source that is picked, in order. The
page is cut from the scopes of all blocks. -/
theorem Sql.Select.Picks.tuples_eq {q : Select} {test : Tuple → Bool} (h : q.Picks db test ordering) :
    q.tuples db = (page q.limit q.offset ((((q.source.rowsIn db []).filter test).insertionSort fun a b =>
      db.rowLe ordering a b).flatMap fun row => Join.extendAll db q.source.tableAlias q.joins
        [(q.source.tableAlias, row)])).map q.tupleOf := by
  have hcell : ∀ row, ∀ scope ∈ Join.extendAll db q.source.tableAlias q.joins
      [(q.source.tableAlias, row)], scope.Has q.source.tableAlias row := by
    intro row scope hscope column
    rw [Join.cell_of_mem_extendAll h.own hscope, Scope.cell_cons_self]
  rw [Select.tuples_eq, scopes, filter_flatMap_of_forall fun row _ scope hscope =>
    h.conditions scope row (hcell row scope hscope)]
  congr 2
  refine insertionSort_flatMap (fun row row' scope hscope scope' hscope' => ?_) _
  rw [h.ordering scope scope' row row' (hcell row scope hscope) (hcell row' scope' hscope')]

theorem Sql.Select.Picks.rows_eq {q : Select} {test : Tuple → Bool} (h : q.Picks db test ordering) :
    q.rows db = (page q.limit q.offset ((((q.source.rowsIn db []).filter test).insertionSort fun a b =>
      db.rowLe ordering a b).flatMap fun row => Join.extendAll db q.source.tableAlias q.joins
        [(q.source.tableAlias, row)])).map q.rowOf := by
  rw [rows, h.tuples_eq, List.map_map]
  rfl

/-- A statement without joins that selects all columns picks rows of its source. -/
theorem Sql.Select.Picks.tuples_eq_page {q : Select} {test : Tuple → Bool} (h : q.Picks db test ordering)
    (hjoins : q.joins = []) (hrow : ∀ row, q.tupleOf [(q.source.tableAlias, row)] = row) :
    q.tuples db = page q.limit q.offset (((q.source.rowsIn db []).filter test).insertionSort fun a b =>
      db.rowLe ordering a b) := by
  have hblocks : (fun row => Join.extendAll db q.source.tableAlias q.joins
      [(q.source.tableAlias, row)]) = fun row => [[(q.source.tableAlias, row)]] := by
    rw [hjoins]
    rfl
  rw [h.tuples_eq, hblocks, ← List.map_eq_flatMap, page_map, List.map_map]
  exact (List.map_congr_left fun row _ => hrow row).trans (List.map_id _)

/-- Unqualified conditions are conditions on the source of a statement. -/
theorem Database.all_holds {tableAlias : String} {scope : Scope}
    (hpredicates : ∀ c ∈ predicates, c.Unqualified) (h : scope.Has tableAlias row) :
    (predicates.all fun c => c.holds db (scope.value tableAlias)) = predicates.all (db.satisfies row) := by
  rw [Bool.eq_iff_iff, List.all_eq_true, List.all_eq_true]
  refine forall₂_congr fun c hc => ?_
  have heval : c.eval db (scope.value tableAlias) = c.eval db fun column => row.cell column.name := by
    refine Condition.eval_congr fun column hcolumn => ?_
    rw [Scope.value, hpredicates c hc column hcolumn, Option.getD_none, h]
  rw [satisfies, Condition.holds, Condition.holds, heval]

/-- Conditions that are qualified by an alias are conditions on its row. -/
theorem Database.all_holds_qualified {tableAlias : String} {scope : Scope}
    (hpredicates : ∀ c ∈ predicates, c.Unqualified) (h : scope.Has tableAlias row) :
    ((Condition.qualifiedAll tableAlias predicates).all fun c => c.holds db (scope.value tableAlias)) =
      predicates.all (db.satisfies row) := by
  rw [Condition.qualifiedAll_eq_map, List.all_map, Bool.eq_iff_iff, List.all_eq_true, List.all_eq_true]
  refine forall₂_congr fun c hc => ?_
  rw [Function.comp_apply, holds_qualified (hpredicates c hc) h]

/-- A statement whose conditions and ordering are qualified by the alias of its source. -/
theorem Sql.Select.picks_of_qualified {q : Select} (hpredicates : ∀ c ∈ predicates, c.Unqualified)
    (hown : q.source.tableAlias ∉ q.joins.map (·.tableAlias))
    (hconditions : q.conditions = Condition.qualifiedAll q.source.tableAlias predicates)
    (hordering : q.ordering = orderingOn q.source.tableAlias ordering) :
    q.Picks db (fun row => predicates.all (db.satisfies row)) ordering := by
  refine ⟨hown, fun scope row h => ?_, fun scope scope' row row' h h' => ?_⟩
  · rw [hconditions, Database.all_holds_qualified hpredicates h]
  · rw [hordering]
    exact Database.scopeLe_map (fun _ _ => rfl) h h'

namespace Plan

/-- The root rows on a page: those that satisfy the predicates, in the order of the page. -/
def rootRows (p : Plan) (db : Database) (predicates : List Condition) (ordering : List SortKey)
    (limit offset : Option Nat) : List Tuple :=
  page limit offset (((db.rows p.rootTable).filter fun row =>
    predicates.all (db.satisfies row)).insertionSort fun a b => db.rowLe ordering a b)

/-- The rows that a plain selection of the root's table picks. -/
theorem tuples_rootSelect (hpredicates : ∀ c ∈ predicates, c.Unqualified) :
    (p.rootSelect predicates ordering limit offset).tuples db =
      p.rootRows db predicates ordering limit offset := by
  have hpicks : (p.rootSelect predicates ordering limit offset).Picks db
      (fun row => predicates.all (db.satisfies row)) ordering := by
    constructor
    case own => exact List.not_mem_nil
    case conditions => exact fun scope row h => Database.all_holds hpredicates h
    case ordering => exact fun scope scope' row row' h h' => Database.scopeLe_map (fun _ _ => rfl) h h'
  refine hpicks.tuples_eq_page rfl fun row => ?_
  simp [Select.tupleOf, rootSelect, Projection.tuple]

/-- The derived table in which a page of root rows is cut. -/
def pageSelect (p : Plan) (predicates : List Condition) (ordering : List SortKey)
    (limit offset : Option Nat) : Select :=
  { source := .table p.rootTable p.root.tableAlias
    projections := [.everything p.root.tableAlias]
    conditions := Condition.qualifiedAll p.root.tableAlias predicates
    ordering := orderingOn p.root.tableAlias ordering
    limit, offset }

/-- The derived table has the root rows on the page, too. -/
theorem tuples_pageSelect (hpredicates : ∀ c ∈ predicates, c.Unqualified) :
    (p.pageSelect predicates ordering limit offset).tuples db =
      p.rootRows db predicates ordering limit offset := by
  have hpicks : (p.pageSelect predicates ordering limit offset).Picks db
      (fun row => predicates.all (db.satisfies row)) ordering :=
    Select.picks_of_qualified hpredicates List.not_mem_nil rfl rfl
  refine hpicks.tuples_eq_page rfl fun row => ?_
  simp [Select.tupleOf, pageSelect, Projection.tuple, Projection.cells, Source.tableAlias]

/-- Root rows are rows of the root's table, none of them more often than there. -/
theorem rootRows_subperm (p : Plan) (db : Database) (predicates : List Condition)
    (ordering : List SortKey) (limit offset : Option Nat) :
    (p.rootRows db predicates ordering limit offset).Subperm (db.rows p.rootTable) :=
  (page_sublist limit offset _).subperm.trans
    ((List.perm_insertionSort _ _).subperm.trans List.filter_sublist.subperm)

/-- A page of root rows is sorted. -/
theorem rootRows_pairwise (p : Plan) (db : Database) (predicates : List Condition)
    (ordering : List SortKey) (limit offset : Option Nat) :
    (p.rootRows db predicates ordering limit offset).Pairwise fun a b => db.rowLe ordering a b :=
  (List.pairwise_insertionSort _ _).sublist (page_sublist limit offset _)

/-- The primary statement for a page that is cut outside: from what the joins make of the root rows. -/
theorem selectFor_direct (h : p.multipliesRows = false ∨ (limit = none ∧ offset = none)) :
    p.selectFor predicates ordering limit offset =
      { p.primary with
        conditions := p.primary.conditions ++ Condition.qualifiedAll p.root.tableAlias predicates
        ordering := p.primary.ordering ++ orderingOn p.root.tableAlias ordering
        limit, offset } := by
  rcases h with h | ⟨rfl, rfl⟩ <;> simp [selectFor, *]

/-- The primary statement for a page that is cut inside a derived table. -/
theorem selectFor_derived (h : p.multipliesRows = true) (hcut : ¬(limit = none ∧ offset = none)) :
    p.selectFor predicates ordering limit offset =
      { p.primary with
        source := .derived (p.pageSelect predicates ordering limit offset) p.root.tableAlias
        ordering := p.primary.ordering ++ orderingOn p.root.tableAlias ordering } := by
  have hsome : (limit.isSome || offset.isSome) = true := by
    cases limit <;> cases offset <;> simp_all
  simp only [selectFor, h, hsome, Bool.and_self, if_true]
  rfl

end Plan

namespace Draft.Projecting

variable (h : d.Projecting s root) (hpredicates : ∀ c ∈ predicates, c.Unqualified)

include h

theorem source_primary : d.primary.source = .table (s.entity root).table d.root.tableAlias :=
  congrArg (·.source) h.statement

/-- The scopes of the primary statement are those of the root rows. -/
theorem scopes_primary : d.primary.scopes db = (db.rows (s.entity root).table).flatMap (d.scopes db) := by
  rw [Select.scopes, h.source_primary]
  rfl

theorem rootAlias_not_mem : d.root.tableAlias ∉ d.primary.joins.map (·.tableAlias) := by
  intro hmem
  obtain ⟨join, hjoin, heq⟩ := List.mem_map.mp hmem
  exact h.rootAlias join hjoin heq

include hpredicates

/-- Where the page is cut outside, it is cut from the scopes of the root rows that are picked. -/
theorem rows_selectFor_direct
    (hdirect : (d.plan s root).multipliesRows = false ∨ (limit = none ∧ offset = none)) :
    ((d.plan s root).selectFor predicates ordering limit offset).rows db =
      (page limit offset (((d.plan s root).rootRows db predicates ordering none none).flatMap
        (d.scopes db))).map d.primary.rowOf := by
  have hconditions : d.primary.conditions = [] := congrArg (·.conditions) h.statement
  have hordering : d.primary.ordering = [] := congrArg (·.ordering) h.statement
  have hstatement : (d.plan s root).selectFor predicates ordering limit offset =
      { d.primary with
        conditions := Condition.qualifiedAll d.root.tableAlias predicates
        ordering := orderingOn d.root.tableAlias ordering, limit, offset } := by
    rw [Plan.selectFor_direct hdirect]
    simp [Draft.plan, hconditions, hordering]
  have hpicks : ((d.plan s root).selectFor predicates ordering limit offset).Picks db
      (fun row => predicates.all (db.satisfies row)) ordering := by
    refine Select.picks_of_qualified hpredicates ?_ ?_ ?_ <;>
      simp only [hstatement, h.source_primary, Source.tableAlias]
    exact h.rootAlias_not_mem
  have hrowOf : ((d.plan s root).selectFor predicates ordering limit offset).rowOf = d.primary.rowOf := by
    rw [hstatement]
    rfl
  rw [hpicks.rows_eq, hrowOf]
  simp only [hstatement, h.source_primary]
  rfl

/-- Where the page is cut inside a derived table, the scopes of the root rows on the page are left. -/
theorem rows_selectFor_derived (hderived : (d.plan s root).multipliesRows = true)
    (hcut : ¬(limit = none ∧ offset = none)) :
    ((d.plan s root).selectFor predicates ordering limit offset).rows db =
      (((d.plan s root).rootRows db predicates ordering limit offset).flatMap
        (d.scopes db)).map d.primary.rowOf := by
  have hordering : d.primary.ordering = [] := congrArg (·.ordering) h.statement
  have hstatement : (d.plan s root).selectFor predicates ordering limit offset =
      { d.primary with
        source := .derived ((d.plan s root).pageSelect predicates ordering limit offset)
          d.root.tableAlias
        ordering := orderingOn d.root.tableAlias ordering } := by
    rw [Plan.selectFor_derived hderived hcut]
    simp [Draft.plan, hordering]
  have hpicks : ((d.plan s root).selectFor predicates ordering limit offset).Picks db
      (fun row => [].all (db.satisfies row)) ordering := by
    have hconditions : d.primary.conditions = [] := congrArg (·.conditions) h.statement
    refine Select.picks_of_qualified (fun c hc => absurd hc List.not_mem_nil) ?_ ?_ ?_ <;>
      simp only [hstatement, hconditions, Condition.qualifiedAll, Source.tableAlias]
    exact h.rootAlias_not_mem
  have hrowOf : ((d.plan s root).selectFor predicates ordering limit offset).rowOf = d.primary.rowOf := by
    funext scope
    simp only [Select.rowOf, Select.tupleOf, hstatement, h.source_primary, Source.tableAlias]
  have hpage : Select.rowsIn db ((d.plan s root).pageSelect predicates ordering limit offset) [] =
      (d.plan s root).rootRows db predicates ordering limit offset := Plan.tuples_pageSelect hpredicates
  have hlimit : d.primary.limit = none := congrArg (·.limit) h.statement
  have hoffset : d.primary.offset = none := congrArg (·.offset) h.statement
  rw [hpicks.rows_eq, hrowOf]
  simp only [hstatement, hlimit, hoffset, Source.rowsIn, Source.tableAlias, List.all_nil, List.filter_true,
    hpage]
  rw [(Plan.rootRows_pairwise ..).insertionSort_eq]
  rfl

/-- The rows of the primary statement for a page are made of the scopes of the root rows on it, if the page
is cut inside a derived table, or there is none, or every root row has a single scope. -/
theorem rows_selectFor (hcounts : (d.plan s root).multipliesRows = true ∨
      (limit = none ∧ offset = none) ∨
      ∀ row ∈ db.rows (s.entity root).table, (d.scopes db row).length = 1) :
    ((d.plan s root).selectFor predicates ordering limit offset).rows db =
      (((d.plan s root).rootRows db predicates ordering limit offset).flatMap
        (d.scopes db)).map d.primary.rowOf := by
  by_cases hcut : limit = none ∧ offset = none
  · rw [h.rows_selectFor_direct hpredicates (.inr hcut), hcut.1, hcut.2]
    rfl
  · cases hmultiplies : (d.plan s root).multipliesRows with
    | true => exact h.rows_selectFor_derived hpredicates hmultiplies hcut
    | false =>
      have hsingle : ∀ row ∈ db.rows (s.entity root).table, (d.scopes db row).length = 1 := by
        rcases hcounts with htrue | hnone | hsingle
        · exact absurd (htrue.symm.trans hmultiplies) (by decide)
        · exact absurd hnone hcut
        · exact hsingle
      have hrows := ((d.plan s root).rootRows_subperm db predicates ordering none none).subset
      rw [h.rows_selectFor_direct hpredicates (.inl hmultiplies),
        page_flatMap fun row hrow => hsingle row (hrows hrow)]
      rfl

end Draft.Projecting

end EagerLoad
