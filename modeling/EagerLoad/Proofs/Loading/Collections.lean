import EagerLoad.Proofs.Loading.Reference

/-!
# Statements of collections

A collection is selected from the target's table, with the junction joined in if there is one. Each scope
of such a statement is a way along the relation: a target with what the relation's join is compared with.
So filtering and sorting scopes is filtering and sorting ways.
-/

namespace EagerLoad

open Sql

namespace Database

variable {db : Database} {ordering : List SortKey} {a b c : Tuple}

theorem rowLe_total (db : Database) (ordering : List SortKey) (a b : Tuple) :
    db.rowLe ordering a b = true ∨ db.rowLe ordering b a = true :=
  db.lexLe_total ordering (·.direction) (a.cell ·.column) (b.cell ·.column)

theorem rowLe_trans (hab : db.rowLe ordering a b = true) (hbc : db.rowLe ordering b c = true) :
    db.rowLe ordering a c = true :=
  lexLe_trans hab hbc

/-- Whether the target of one way comes before or with that of another. -/
def wayLe (db : Database) (ordering : List SortKey) (a b : Tuple × Tuple) : Prop :=
  db.rowLe ordering a.1 b.1 = true

instance (ordering : List SortKey) : DecidableRel (db.wayLe ordering) :=
  fun a b => inferInstanceAs (Decidable (db.rowLe ordering a.1 b.1 = true))

instance (ordering : List SortKey) : IsTrans (Tuple × Tuple) (db.wayLe ordering) :=
  ⟨fun _ _ _ => rowLe_trans⟩

instance (ordering : List SortKey) : Std.Total (db.wayLe ordering) :=
  ⟨fun a b => rowLe_total db ordering a.1 b.1⟩

end Database

namespace Schema

variable {s : Schema} {r : Request} {db : Database} {id : s.RelationId} {inner middle other : String}
  {outer : Scope} {way : Tuple × Tuple} {row : Tuple}

/-- What a collection's statement joins to the target under `inner`: the junction under `middle`. -/
def linkJoins (s : Schema) (id : s.RelationId) (inner middle : String) : List Join :=
  match (s.relation id).junction with
  | some junction =>
    [⟨.inner, .table junction.table, middle, pairsEqual junction.target middle inner⟩]
  | none => []

/-- The alias with which the join of a collection is compared. -/
def linkAlias (s : Schema) (id : s.RelationId) (inner middle : String) : String :=
  match (s.relation id).junction with
  | some _ => middle
  | none => inner

/-- The scope of a way. -/
def wayScope (s : Schema) (id : s.RelationId) (inner middle : String) (outer : Scope)
    (way : Tuple × Tuple) : Scope :=
  match (s.relation id).junction with
  | some _ => (middle, way.2) :: (inner, way.1) :: outer
  | none => (inner, way.1) :: outer

theorem wayScope_inner (hne : inner ≠ middle) (column : String) :
    (s.wayScope id inner middle outer way).cell inner column = way.1.cell column := by
  unfold wayScope
  split
  · rw [Scope.cell_cons_of_ne hne, Scope.cell_cons_self]
  · rw [Scope.cell_cons_self]

theorem wayScope_link (h : way ∈ s.ways db id) (column : String) :
    (s.wayScope id inner middle outer way).cell (s.linkAlias id inner middle) column =
      way.2.cell column := by
  unfold ways at h
  unfold wayScope linkAlias
  cases hj : (s.relation id).junction with
  | some junction => simp only [Scope.cell_cons_self]
  | none =>
    simp only [hj] at h
    obtain ⟨target, -, rfl⟩ := List.mem_map.mp h
    simp only [Scope.cell_cons_self]

theorem wayScope_of_ne (hinner : other ≠ inner) (hmiddle : other ≠ middle) (column : String) :
    (s.wayScope id inner middle outer way).cell other column = outer.cell other column := by
  unfold wayScope
  split
  · rw [Scope.cell_cons_of_ne hmiddle, Scope.cell_cons_of_ne hinner]
  · rw [Scope.cell_cons_of_ne hinner]

/-- The scopes of a collection's statement are those of the ways. -/
theorem flatMap_linkJoins (hne : inner ≠ middle) (scopeAlias : String) :
    ((db.rows (s.target id).table).flatMap fun row =>
      Join.extendAll db scopeAlias (s.linkJoins id inner middle) ((inner, row) :: outer)) =
      (s.ways db id).map (s.wayScope id inner middle outer) := by
  unfold linkJoins ways wayScope
  cases hj : (s.relation id).junction with
  | none =>
    simp only [Join.extendAll, List.map_map]
    exact (List.map_eq_flatMap ..).symm
  | some junction =>
    simp only [Join.extendAll, JoinTarget.rowsIn, JoinKind.extend_inner, List.map_flatMap, List.map_map]
    apply List.flatMap_congr
    intro target _
    have hjoined : (fun link => (pairsEqual junction.target middle inner).holds db
        (Scope.value ((middle, link) :: (inner, target) :: outer) scopeAlias)) =
        fun link => db.joined junction.target link target := by
      ext link
      apply Database.holds_pairsEqual (fun column _ => Scope.cell_cons_self column)
      intro column
      rw [Scope.cell_cons_of_ne hne, Scope.cell_cons_self]
    rw [hjoined, List.flatMap_singleton']
    rfl

/-- The rows of a collection's statement, whose conditions hold for some ways: these ways sorted and cut
to a page. -/
theorem rowsIn_collection {keys : List SortKey} {limit : Option Nat} {projections : List Projection}
    {conditions : List Condition} {test : Tuple × Tuple → Bool} (hne : inner ≠ middle)
    (htest : ∀ way ∈ s.ways db id, (conditions.all fun c =>
      c.holds db ((s.wayScope id inner middle outer way).value inner)) = test way) :
    Select.rowsIn db
      { source := .table (s.target id).table inner, projections, joins := s.linkJoins id inner middle,
        conditions, ordering := orderingOn inner keys, limit } outer =
      (page limit none (((s.ways db id).filter test).insertionSort (db.wayLe keys))).map fun way =>
        let scope := s.wayScope id inner middle outer way
        Projection.tuple inner (scope.take (scope.length - outer.length)) scope projections := by
  have hfilter : ((s.ways db id).map (s.wayScope id inner middle outer)).filter (fun scope =>
      conditions.all fun c => c.holds db (scope.value inner)) =
      ((s.ways db id).filter test).map (s.wayScope id inner middle outer) := by
    rw [List.filter_map]
    exact congrArg _ (List.filter_congr htest)
  have hsort : (((s.ways db id).filter test).map (s.wayScope id inner middle outer)).insertionSort
      (fun a b => db.scopeLe inner (orderingOn inner keys) a b = true) =
      (((s.ways db id).filter test).insertionSort (db.wayLe keys)).map
        (s.wayScope id inner middle outer) := by
    refine (List.map_insertionSort _ _ _ _ fun a _ b _ => ?_).symm
    simp only [Database.wayLe, Database.rowLe, Database.scopeLe, orderingOn, List.map_map,
      Function.comp_def, Scope.value_of, wayScope_inner hne]
  simp only [Select.rowsIn, Source.rowsIn, Source.tableAlias, flatMap_linkJoins hne, hfilter]
  rw [hsort, page_map, List.map_map]
  rfl

/-- The members of a collection in their order are the targets of the ways in this order. -/
theorem collection_eq (row : Tuple) : s.collection r db id row =
    (page r.limit none (((s.ways db id).filter fun way =>
      db.joined (s.relation id).join row way.2 && r.admits db (s.relation id).name way.1).insertionSort
        (db.wayLe (r.sortKeys (s.target id))))).map (·.1) := by
  unfold collection members
  dsimp only
  rw [← page_map]
  refine congrArg (page r.limit none) (List.map_insertionSort _ _ _ _ fun a _ b _ => ?_).symm
  rfl

end Schema

end EagerLoad
