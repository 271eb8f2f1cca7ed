import EagerLoad.Proofs.Loading.Collections
import EagerLoad.Proofs.Loading.Standing
import EagerLoad.Proofs.Schema.Build

/-!
# What attached joins bring in

Attaching a to-one hop joins its target, through the junction if there is one; attaching a bounded hop
joins a sub-select. For a scope that has a row for the parent, the joins bring in the rows to which the
row leads along the relation, and nulls where there are none.
-/

namespace EagerLoad

open Sql

/-- The adjustments of a request are on columns of the target. -/
def Request.Unqualified (r : Request) : Prop :=
  ∀ name c, r.adjustments.get? name = some c → c.Unqualified

/-- A node loads an entity: it has the key and the columns of the entity. -/
structure Schema.Loads (s : Schema) (n : Node) (e : s.EntityId) : Prop where
  entity : n.entity = e
  primaryKey : n.primaryKey = (s.entity e).primaryKey
  columns : n.columns = (s.entity e).columns

namespace Schema.Loads

variable {s : Schema} {n : Node} {e : s.EntityId}

theorem primaryKey_mem (h : s.Loads n e) (hdeclared : s.Declared) : n.primaryKey ∈ n.columns := by
  rw [h.primaryKey, h.columns]
  exact (hdeclared _ (List.getElem_mem _)).primaryKey_mem

theorem rowKey_eq (h : s.Loads n e) : n.rowKey = (s.entity e).identity := by
  funext row
  rw [Node.rowKey, Entity.identity, h.primaryKey]

end Schema.Loads

namespace Node

variable {n : Node} {scope : Scope} {row : Tuple}

theorem scopeKey?_of_null (h : scope.cell n.tableAlias n.primaryKey = .null) :
    n.scopeKey? scope = none := by
  simp [scopeKey?, h, Value.isNull]

/-- The key of a scope that has a row is the row's. -/
theorem scopeKey?_of_cell (h : scope.cell n.tableAlias n.primaryKey = row.cell n.primaryKey)
    (hne : row.cell n.primaryKey ≠ .null) : n.scopeKey? scope = some (n.rowKey row) := by
  have hnull : (row.cell n.primaryKey).isNull = false := by
    rw [Bool.eq_false_iff, ne_eq, Value.isNull_iff]
    exact hne
  simp [scopeKey?, h, hnull, rowKey]

/-- A scope has no row for the node, or one of some rows. -/
def ShowsOneOf (n : Node) (rows : List Tuple) (scope : Scope) : Prop :=
  n.scopeKey? scope = none ∨ ∃ row ∈ rows, n.Shows scope row

end Node

/-- Joins bring in, for a row of a parent, the rows to which it leads; each of them is in a table. -/
structure Brings (db : Database) (scopeAlias : String) (joins : List Join) (m n : Node)
    (table : List Tuple) (led : Tuple → List Tuple) : Prop where
  keys : ∀ scope row, m.Shows scope row →
    (Join.extendAll db scopeAlias joins scope).filterMap n.scopeKey? = (led row).map n.rowKey
  shown : ∀ scope, ∀ scope' ∈ Join.extendAll db scopeAlias joins scope, n.ShowsOneOf table scope'

/-- Scopes into which joins bring what a row leads to stand for these rows, each once. -/
theorem Brings.stands {s : Schema} {db : Database} {scopeAlias : String} {joins : List Join} {m n : Node}
    {led : Tuple → List Tuple} {e : s.EntityId} {targets : Node → Tuple → List Tuple} {row : Tuple}
    {part : List Scope} (h : Brings db scopeAlias joins m n (db.rows (s.entity e).table) led)
    (hsuits : s.Suits db) (hn : s.Loads n e) (hled : led row ⊆ db.rows (s.entity e).table)
    (htargets : targets n row = (s.entity e).once (led row)) (hne : part ≠ [])
    (hpart : ∀ scope ∈ part, m.Shows scope row) :
    Stands targets (.node n []) (part.flatMap (Join.extendAll db scopeAlias joins)) (targets n row) := by
  have hentity : s.entity e ∈ s.entities := List.getElem_mem _
  refine .node ?_ (fun target htarget scope' hscope' => ?_) (by simp)
  · rw [htargets, hn.rowKey_eq, Entity.map_identity_once, ← hn.rowKey_eq, Node.scopeKeys,
      List.filterMap_flatMap]
    have hconst : part.flatMap (fun scope =>
        (Join.extendAll db scopeAlias joins scope).filterMap n.scopeKey?) =
        part.flatMap fun _ => (led row).map n.rowKey :=
      List.flatMap_congr fun scope hscope => h.keys scope row (hpart scope hscope)
    rw [hconst, eraseDups_flatMap_const hne]
  · obtain ⟨hmem, hkey⟩ := Node.mem_scopesOf.mp hscope'
    obtain ⟨scope, -, hmem⟩ := List.mem_flatMap.mp hmem
    rcases h.shown scope scope' hmem with hnone | ⟨other, hother, hshows⟩
    · rw [hkey] at hnone
      cases hnone
    · have hcell := hshows _ (hn.primaryKey_mem hsuits.declared)
      have hnull : other.cell n.primaryKey ≠ .null := by
        rw [hn.primaryKey]
        exact hsuits.key _ hentity other hother
      rw [Node.scopeKey?_of_cell hcell hnull, hn.rowKey_eq] at hkey
      have htable : target ∈ db.rows (s.entity e).table :=
        hled (Entity.once_subset (htargets ▸ htarget))
      have heq := List.inj_on_of_nodup_map (hsuits.unique _ hentity) hother htable (Option.some.inj hkey)
      exact heq ▸ hshows

/-- Values of rows that are padded with nulls. -/
theorem filterMap_padded {β : Type} {nulls : Tuple} {rows : List Tuple} {f : Tuple → Option β} {g : Tuple → β}
    (hnulls : f nulls = none) (h : ∀ row ∈ rows, f row = some (g row)) :
    (padded nulls rows).filterMap f = rows.map g := by
  cases rows with
  | nil => simp [padded, hnulls]
  | cons row rest =>
    have hsame : padded nulls (row :: rest) = row :: rest := rfl
    rw [hsame, List.filterMap_congr h]
    exact congrFun List.filterMap_eq_map' _

theorem flatMap_padded {β : Type} {nulls : Tuple} {rows : List Tuple} {f : Tuple → List β}
    (hnulls : f nulls = []) : (padded nulls rows).flatMap f = rows.flatMap f := by
  cases rows with
  | nil => simp [padded, hnulls]
  | cons row rest => rfl

namespace Schema

variable {s : Schema} {r : Request} {db : Database} {id : s.RelationId} {m n : Node} {scope : Scope}
  {tableAlias scopeAlias : String} {row : Tuple}

/-- Whether a target satisfies the adjustment of a hop. -/
theorem all_adjustments (hr : r.Unqualified)
    (hrow : ∀ column, scope.cell tableAlias column = row.cell column) :
    (((s.hop r m id).adjustments tableAlias).all fun c => c.holds db (scope.value scopeAlias)) =
      r.admits db (s.relation id).name row := by
  have hadjustment : (s.hop r m id).adjustment = r.adjustments.get? (s.relation id).name := rfl
  unfold Hop.adjustments Request.admits
  rw [hadjustment]
  cases h : r.adjustments.get? (s.relation id).name with
  | none => rfl
  | some c => simp [Database.holds_qualified (hr _ c h) hrow]

/-- A condition narrowed by the adjustment of a hop. -/
theorem holds_adjusted (hr : r.Unqualified) (c : Condition)
    (hrow : ∀ column, scope.cell tableAlias column = row.cell column) :
    ((s.hop r m id).adjusted tableAlias c).holds db (scope.value scopeAlias) =
      (c.holds db (scope.value scopeAlias) && r.admits db (s.relation id).name row) := by
  have hadjustment : (s.hop r m id).adjustment = r.adjustments.get? (s.relation id).name := rfl
  unfold Hop.adjusted Request.admits
  rw [hadjustment]
  cases h : r.adjustments.get? (s.relation id).name with
  | none => simp
  | some a =>
    rw [Bool.eq_iff_iff]
    simp [Condition.holds_both, Database.holds_qualified (hr _ a h) hrow]

/-- What the outer join of a table by pairs makes of a scope. -/
theorem extend_pairsEqual {pairs : JoinPairs} {left : String} {leftRow : Tuple} (hne : left ≠ tableAlias)
    (hleft : ∀ column ∈ pairs.left, scope.cell left column = leftRow.cell column) (rows : List Tuple)
    (nulls : Tuple) :
    JoinKind.left.extend db scopeAlias tableAlias (pairsEqual pairs left tableAlias) rows nulls scope =
      (padded nulls (rows.filter (db.joined pairs leftRow))).map fun row => (tableAlias, row) :: scope := by
  rw [JoinKind.extend_left]
  refine congrArg (List.map _) (congrArg (padded _) (List.filter_congr fun row _ => ?_))
  refine Database.holds_pairsEqual (fun column hcolumn => ?_) fun column => Scope.cell_cons_self column
  rw [Scope.cell_cons_of_ne hne, hleft column hcolumn]

/-- The join of a target's table. -/
def targetJoin (s : Schema) (r : Request) (id : s.RelationId) (m : Node) (pairs : JoinPairs)
    (left tableAlias : String) : Join :=
  ⟨.left, .table (s.target id).table, tableAlias,
    (s.hop r m id).adjusted tableAlias (pairsEqual pairs left tableAlias)⟩

/-- What the join of a target's table makes of a scope. -/
theorem extendAll_targetJoin (hr : r.Unqualified) {pairs : JoinPairs} {left : String} {leftRow : Tuple}
    (hne : left ≠ tableAlias)
    (hleft : ∀ column ∈ pairs.left, scope.cell left column = leftRow.cell column) :
    Join.extendAll db scopeAlias [s.targetJoin r id m pairs left tableAlias] scope =
      (padded (.nulls (db.columns (s.target id).table)) ((db.rows (s.target id).table).filter fun target =>
        db.joined pairs leftRow target && r.admits db (s.relation id).name target)).map
          fun target => (tableAlias, target) :: scope := by
  rw [targetJoin, Join.extendAll_singleton, JoinTarget.rowsIn_table, JoinKind.extend_left]
  refine congrArg (List.map _) (congrArg (padded _) (List.filter_congr fun target _ => ?_))
  have hself : ∀ column, Scope.cell ((tableAlias, target) :: scope) tableAlias column =
      target.cell column := fun column => Scope.cell_cons_self column
  rw [holds_adjusted hr _ hself]
  refine congrArg (· && _) (Database.holds_pairsEqual (fun column hcolumn => ?_) fun column => ?_)
  · rw [Scope.cell_cons_of_ne hne, hleft column hcolumn]
  · exact hself column

/-- The keys that the join of a target's table brings in. -/
theorem keys_targetJoin (hr : r.Unqualified) (hsuits : s.Suits db)
    (hn : s.Loads n (s.relation id).target) {pairs : JoinPairs} {left : String} {leftRow : Tuple}
    (hne : left ≠ n.tableAlias)
    (hleft : ∀ column ∈ pairs.left, scope.cell left column = leftRow.cell column) :
    (Join.extendAll db scopeAlias [s.targetJoin r id m pairs left n.tableAlias] scope).filterMap
        n.scopeKey? =
      ((db.rows (s.target id).table).filter fun target =>
        db.joined pairs leftRow target && r.admits db (s.relation id).name target).map n.rowKey := by
  rw [extendAll_targetJoin hr hne hleft, List.filterMap_map]
  refine filterMap_padded ?_ fun target htarget => ?_
  · refine Node.scopeKey?_of_null ?_
    rw [Scope.cell_cons_self, Tuple.cell_nulls]
  · refine Node.scopeKey?_of_cell (Scope.cell_cons_self _) ?_
    rw [hn.primaryKey]
    exact hsuits.key _ (List.getElem_mem _) _ (List.mem_filter.mp htarget).1

/-- The joins that attach a to-one hop; the junction stands under `middle`. -/
def partnerJoins (s : Schema) (r : Request) (id : s.RelationId) (m : Node) (middle tableAlias : String) :
    List Join :=
  match (s.relation id).junction with
  | some junction =>
    [⟨.left, .table junction.table, middle, pairsEqual (s.relation id).join m.tableAlias middle⟩,
      s.targetJoin r id m junction.target middle tableAlias]
  | none => [s.targetJoin r id m (s.relation id).join m.tableAlias tableAlias]

/-- What the joins of a to-one hop make of the last alias: a row of the target, or nulls. -/
theorem shown_of_extendAll_targetJoin {pairs : JoinPairs} {left : String} {scope' : Scope}
    (h : scope' ∈ Join.extendAll db scopeAlias [s.targetJoin r id m pairs left n.tableAlias] scope) :
    n.ShowsOneOf (db.rows (s.target id).table) scope' := by
  rw [targetJoin, Join.extendAll_singleton, JoinTarget.rowsIn_table, JoinKind.extend_left] at h
  obtain ⟨target, htarget, rfl⟩ := List.mem_map.mp h
  rcases mem_padded htarget with rfl | htarget
  · refine .inl (Node.scopeKey?_of_null ?_)
    rw [Scope.cell_cons_self, Tuple.cell_nulls]
  · exact .inr ⟨target, (List.mem_filter.mp htarget).1, fun column _ => Scope.cell_cons_self column⟩

/-- The joins of a to-one hop bring in the partners of a row. -/
theorem brings_partnerJoins (hr : r.Unqualified) (hsuits : s.Suits db)
    (hfit : JoinsFit (s.relation id).join (s.relation id).junction (s.entity (s.relation id).source)
      (s.target id))
    (hm : m.columns = (s.entity (s.relation id).source).columns) (hn : s.Loads n (s.relation id).target)
    {middle : String} (hmiddle : m.tableAlias ≠ middle) (hmn : m.tableAlias ≠ n.tableAlias)
    (hmiddlen : middle ≠ n.tableAlias) :
    Brings db scopeAlias (s.partnerJoins r id m middle n.tableAlias) m n (db.rows (s.target id).table)
      (s.partners r db id) := by
  have hleft {scope : Scope} {row : Tuple} (hshows : m.Shows scope row) :
      ∀ column ∈ (s.relation id).join.left, scope.cell m.tableAlias column = row.cell column :=
    fun column hcolumn => hshows column (hm ▸ hfit.left hcolumn)
  cases hj : (s.relation id).junction with
  | none =>
    simp only [partnerJoins, hj]
    refine ⟨fun scope row hshows => ?_, fun scope scope' hscope' => shown_of_extendAll_targetJoin hscope'⟩
    simp only [partners, hj]
    exact keys_targetJoin hr hsuits hn hmn (hleft hshows)
  | some junction =>
    simp only [partnerJoins, hj]
    obtain ⟨htarget, -⟩ := hfit.through junction hj
    obtain ⟨pair, hpair⟩ := List.exists_mem_of_ne_nil _ htarget
    have hpairLeft : pair.1 ∈ junction.target.left :=
      List.mem_map_of_mem (f := fun pair : String × String => pair.1) hpair
    refine ⟨fun scope row hshows => ?_, fun scope scope' hscope' => ?_⟩
    · rw [Join.extendAll_cons, JoinTarget.rowsIn_table, extend_pairsEqual hmiddle (hleft hshows),
        List.flatMap_map, List.filterMap_flatMap]
      -- A row of nulls in place of the junction joins no target.
      have hnulls : ((db.rows (s.target id).table).filter fun target =>
          db.joined junction.target (.nulls (db.columns junction.table)) target &&
            r.admits db (s.relation id).name target) = [] := by
        apply List.filter_eq_nil_iff.mpr
        intro target _
        simp [Database.joined_eq_false hpairLeft (Tuple.cell_nulls _ _)]
      have hkeys (link : Tuple) : (Join.extendAll db scopeAlias
          [s.targetJoin r id m junction.target middle n.tableAlias]
            ((middle, link) :: scope)).filterMap n.scopeKey? =
          ((db.rows (s.target id).table).filter fun target => db.joined junction.target link target &&
            r.admits db (s.relation id).name target).map n.rowKey :=
        keys_targetJoin hr hsuits hn hmiddlen fun column _ => Scope.cell_cons_self column
      simp only [partners, hj, hkeys]
      rw [flatMap_padded (by rw [JoinTarget.columns, hnulls, List.map_nil]), List.map_flatMap]
    · rw [Join.extendAll_cons] at hscope'
      obtain ⟨scope₁, -, hscope'⟩ := List.mem_flatMap.mp hscope'
      exact shown_of_extendAll_targetJoin hscope'

/-- The sub-select that attaches a bounded hop. -/
def collectionSelect (s : Schema) (r : Request) (id : s.RelationId) (m : Node)
    (inner middle : String) (limit : Nat) : Select where
  source := .table (s.target id).table inner
  projections := (s.target id).columns.map fun column => .column (.of inner column) none
  joins := s.linkJoins id inner middle
  conditions := pairsEqual (s.relation id).join m.tableAlias (s.linkAlias id inner middle) ::
    (s.hop r m id).adjustments inner
  ordering := orderingOn inner (r.sortKeys (s.target id))
  limit := some limit

/-- A row of the sub-select has the columns of the target of its way. -/
theorem cell_of_collectionSelect {inner middle column : String} (hne : inner ≠ middle)
    {way : Tuple × Tuple} (own : Scope) (h : column ∈ (s.target id).columns) :
    (Projection.tuple inner own (s.wayScope id inner middle scope way)
      ((s.target id).columns.map fun column => .column (.of inner column) none)).cell column =
        way.1.cell column := by
  rw [Projection.cell_row own h, wayScope_inner hne]

/-- Every row of the sub-select has the columns of a row of the target. -/
theorem exists_of_mem_collectionSelect {inner middle : String} (hne : inner ≠ middle) {limit : Nat}
    (h : row ∈ (s.collectionSelect r id m inner middle limit).rowsIn db scope) :
    ∃ target ∈ db.rows (s.target id).table, ∀ column ∈ (s.target id).columns,
      row.cell column = target.cell column := by
  rw [collectionSelect, rowsIn_collection hne fun way _ => rfl] at h
  obtain ⟨way, hway, rfl⟩ := List.mem_map.mp h
  have hmem : way ∈ s.ways db id := by
    have hsorted := page_subset _ _ _ hway
    exact (List.mem_filter.mp ((List.mem_insertionSort _).mp hsorted)).1
  exact ⟨way.1, (mem_of_mem_ways hmem).1, fun column hcolumn => cell_of_collectionSelect hne _ hcolumn⟩

/-- For a scope that has a row for the parent, the sub-select has the columns of the row's collection. -/
theorem map_collectionSelect (hr : r.Unqualified) {inner middle : String} (hne : inner ≠ middle)
    (hinner : m.tableAlias ≠ inner) (hmiddle : m.tableAlias ≠ middle) {limit : Nat}
    (hlimit : r.limit = some limit)
    (hleft : ∀ column ∈ (s.relation id).join.left, scope.cell m.tableAlias column = row.cell column)
    {column : String} (hcolumn : column ∈ (s.target id).columns) :
    ((s.collectionSelect r id m inner middle limit).rowsIn db scope).map (·.cell column) =
      (s.collection r db id row).map (·.cell column) := by
  have htest : ∀ way ∈ s.ways db id, (List.all
      (pairsEqual (s.relation id).join m.tableAlias (s.linkAlias id inner middle) ::
        (s.hop r m id).adjustments inner) fun c =>
          c.holds db ((s.wayScope id inner middle scope way).value inner)) =
      (db.joined (s.relation id).join row way.2 && r.admits db (s.relation id).name way.1) := by
    intro way hway
    rw [List.all_cons, all_adjustments hr fun column => wayScope_inner hne column]
    refine congrArg (· && _) (Database.holds_pairsEqual (fun column hcolumn => ?_) fun column => ?_)
    · rw [wayScope_of_ne hinner hmiddle, hleft column hcolumn]
    · exact wayScope_link hway column
  rw [collectionSelect, rowsIn_collection hne htest, collection_eq, hlimit, List.map_map, List.map_map]
  apply List.map_congr_left
  intro way _
  exact cell_of_collectionSelect hne _ hcolumn

/-- The join of the sub-select of a bounded hop brings in the collection of a row. -/
theorem brings_collectionSelect (hr : r.Unqualified) (hsuits : s.Suits db)
    (hfit : JoinsFit (s.relation id).join (s.relation id).junction (s.entity (s.relation id).source)
      (s.target id))
    (hm : m.columns = (s.entity (s.relation id).source).columns) (hn : s.Loads n (s.relation id).target)
    {inner middle : String} (hne : inner ≠ middle) (hinner : m.tableAlias ≠ inner)
    (hmiddle : m.tableAlias ≠ middle) {limit : Nat} (hlimit : r.limit = some limit) :
    Brings db scopeAlias [⟨.left, .lateral (s.collectionSelect r id m inner middle limit), n.tableAlias,
      .literal true⟩] m n (db.rows (s.target id).table) (s.collection r db id) := by
  have hcolumns : n.columns = (s.target id).columns := hn.columns
  have hextend (scope : Scope) : Join.extendAll db scopeAlias [⟨.left,
      .lateral (s.collectionSelect r id m inner middle limit), n.tableAlias, .literal true⟩] scope =
      (padded (.nulls ((s.collectionSelect r id m inner middle limit).columns db))
        ((s.collectionSelect r id m inner middle limit).rowsIn db scope)).map
          fun row => (n.tableAlias, row) :: scope := by
    have htrue (value : Column → Value) : (Condition.literal true).holds db value = true := by
      simp [Condition.holds, Condition.eval]
    rw [Join.extendAll_singleton, JoinTarget.rowsIn_lateral, JoinKind.extend_left, JoinTarget.columns]
    simp only [htrue, List.filter_true]
  refine ⟨fun scope row hshows => ?_, fun scope scope' hscope' => ?_⟩
  · have hkey : n.primaryKey ∈ (s.target id).columns := hcolumns ▸ hn.primaryKey_mem hsuits.declared
    rw [hextend, List.filterMap_map]
    have hrows : ((s.collectionSelect r id m inner middle limit).rowsIn db scope).map n.rowKey =
        (s.collection r db id row).map n.rowKey := by
      have hcells : ((s.collectionSelect r id m inner middle limit).rowsIn db scope).map
          (·.cell n.primaryKey) = (s.collection r db id row).map (·.cell n.primaryKey) :=
        map_collectionSelect hr hne hinner hmiddle hlimit
          (fun column hcolumn => hshows column (hm ▸ hfit.left hcolumn)) hkey
      have hidentities := congrArg (List.map Value.identity) hcells
      rw [List.map_map, List.map_map] at hidentities
      exact hidentities
    rw [← hrows]
    refine filterMap_padded ?_ fun target htarget => ?_
    · refine Node.scopeKey?_of_null ?_
      rw [Scope.cell_cons_self, Tuple.cell_nulls]
    · refine Node.scopeKey?_of_cell (Scope.cell_cons_self _) ?_
      obtain ⟨row', hrow', hcell⟩ := exists_of_mem_collectionSelect hne htarget
      rw [hcell _ hkey, hn.primaryKey]
      exact hsuits.key _ (List.getElem_mem _) _ hrow'
  · rw [hextend] at hscope'
    obtain ⟨target, htarget, rfl⟩ := List.mem_map.mp hscope'
    rcases mem_padded htarget with rfl | htarget
    · refine .inl (Node.scopeKey?_of_null ?_)
      rw [Scope.cell_cons_self, Tuple.cell_nulls]
    · obtain ⟨row', hrow', hcell⟩ := exists_of_mem_collectionSelect hne htarget
      refine .inr ⟨row', hrow', fun column hcolumn => ?_⟩
      rw [Scope.cell_cons_self, hcell column (hcolumns ▸ hcolumn)]

end Schema

end EagerLoad
