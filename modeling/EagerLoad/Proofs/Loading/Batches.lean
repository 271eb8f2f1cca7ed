import EagerLoad.Proofs.Hydration.Success
import EagerLoad.Proofs.Loading.Keys
import EagerLoad.Proofs.Loading.Statements

/-!
# Rows of a batch

The rows that come back for a batch are the ways to which one of its keys leads. Of these, the ones that
link to a parent record are the ways along which the record's row leads, in the order of the collection.
-/

namespace EagerLoad

open Sql

/-- What a statement makes of a scope. -/
def Sql.Select.tupleOf (q : Select) (scope : Scope) : Tuple :=
  Projection.tuple q.source.tableAlias scope scope q.projections

/-- The row that comes back for a scope. -/
def Sql.Select.rowOf (q : Select) (scope : Scope) : Row :=
  (q.tupleOf scope).row

/-- The row of a scope has under a label the value of the column that is selected there. -/
theorem Sql.Select.named_rowOf {q : Select} {c : Column} {label : String} {scope : Scope}
    (h : Projection.Labelled q.projections) (hmem : .column c (some label) ∈ q.projections) :
    (q.rowOf scope).named label = .ok (scope.value q.source.tableAlias c) :=
  h.named hmem

/-- The columns that are read have a value each. -/
theorem Row.exists_mapM_named {row : Row} {labels : List String}
    (h : ∀ label ∈ labels, ∃ v, row.named label = .ok v) :
    ∃ values, labels.mapM row.named = .ok values := by
  induction labels with
  | nil => exact ⟨[], rfl⟩
  | cons label rest ih =>
    obtain ⟨v, hv⟩ := h label List.mem_cons_self
    obtain ⟨vs, hvs⟩ := ih fun l hl => h l (List.mem_cons_of_mem _ hl)
    exact ⟨v :: vs, by rw [List.mapM_cons, hv, hvs]; rfl⟩

namespace Schema

variable {s : Schema} {r : Request} {db : Database} {id : s.RelationId} {opener n : Node} {number : Nat}
  {inner middle : String} {scope : Scope} {keys : List (List Value)} {row : Tuple}

/-- The ways along which a row leads, in the order of the request. -/
def waysFrom (s : Schema) (r : Request) (db : Database) (id : s.RelationId) (row : Tuple) :
    List (Tuple × Tuple) :=
  ((s.ways db id).filter fun way =>
    db.joined (s.relation id).join row way.2 && r.admits db (s.relation id).name way.1).insertionSort
      (db.wayLe (r.sortKeys (s.target id)))

theorem mem_waysFrom {way : Tuple × Tuple} (h : way ∈ s.waysFrom r db id row) : way ∈ s.ways db id :=
  (List.mem_filter.mp ((List.mem_insertionSort _).mp h)).1

/-- Without a bound a collection has the targets of all ways. -/
theorem collection_eq_map_waysFrom (hlimit : r.limit = none) :
    s.collection r db id row = (s.waysFrom r db id row).map (·.1) := by
  rw [collection_eq, hlimit]
  rfl

/-- No way leads from a row that is null where it is joined. -/
theorem waysFrom_eq_nil {column : String} (hcolumn : column ∈ (s.relation id).join.left)
    (hnull : row.cell column = .null) : s.waysFrom r db id row = [] := by
  have hnone : ((s.ways db id).filter fun way => db.joined (s.relation id).join row way.2 &&
      r.admits db (s.relation id).name way.1) = [] := by
    apply List.filter_eq_nil_iff.mpr
    intro way _
    simp [Database.joined_eq_false hcolumn hnull]
  rw [waysFrom, hnone]
  rfl

section Labels

variable (hdot : '.' ∉ inner.toList) (hnames : ∀ column ∈ (s.target id).columns, ∀ i, column ≠ linkName i)

include hdot hnames

theorem labelled_collectionBatch :
    Projection.Labelled (s.collectionBatch r id opener number inner middle).statement.projections :=
  Projection.labelled_ofLink hdot hnames

/-- A row of a batch has the columns of the target. -/
theorem named_rowOf_collectionBatch {column : String} (hcolumn : column ∈ (s.target id).columns) :
    ((s.collectionBatch r id opener number inner middle).statement.rowOf scope).named
      (columnLabel inner column) = .ok (scope.cell inner column) :=
  Select.named_rowOf (labelled_collectionBatch hdot hnames)
    (List.mem_append_right _ (List.mem_map_of_mem hcolumn))

/-- A row of a batch has the columns of the link. -/
theorem named_linkLabel {i : Nat} {c : Column}
    (hc : (s.collectionBatch r id opener number inner middle).link[i]? = some c) :
    ((s.collectionBatch r id opener number inner middle).statement.rowOf scope).named
      (columnLabel inner (linkName i)) = .ok (scope.value inner c) :=
  Select.named_rowOf (labelled_collectionBatch hdot hnames)
    (List.mem_append_left _ (Projection.mem_ofLink.mpr ⟨i, c, hc, rfl⟩))

/-- The link of a row of a batch is read. -/
theorem exists_link_rowOf_collectionBatch :
    ∃ link, (s.collectionBatch r id opener number inner middle).linkLabels.mapM
      ((s.collectionBatch r id opener number inner middle).statement.rowOf scope).named = .ok link := by
  apply Row.exists_mapM_named
  intro label hlabel
  obtain ⟨i, hi, rfl⟩ := List.mem_map.mp hlabel
  rw [List.mem_range] at hi
  exact ⟨_, named_linkLabel hdot hnames (List.getElem?_eq_getElem hi)⟩

/-- The link of a row of a batch has the cells that the join is compared with. -/
theorem linkOf_rowOf_collectionBatch :
    (s.collectionBatch r id opener number inner middle).linkOf
        ((s.collectionBatch r id opener number inner middle).statement.rowOf scope) =
      (s.relation id).join.map fun pair =>
        (scope.cell (s.linkAlias id inner middle) pair.2).identity := by
  refine List.ext_getElem ?_ fun i hi hi' => ?_
  · simp [Batch.linkOf, identities, collectionBatch, JoinPairs.right]
  · rw [List.length_map] at hi'
    have hlink : (s.collectionBatch r id opener number inner middle).link[i]? =
        some (.of (s.linkAlias id inner middle) (s.relation id).join[i].2) := by
      simp [collectionBatch, JoinPairs.right, hi']
    have hnamed : ((s.collectionBatch r id opener number inner middle).statement.rowOf scope).named
        (columnLabel inner (linkName i)) = .ok _ := named_linkLabel hdot hnames hlink
    have hcell := Row.cell_of_named hnamed
    rw [Scope.value_of] at hcell
    simp only [Batch.linkOf, identities, List.getElem_map]
    rw [← hcell]
    simp [collectionBatch]

end Labels

/-- The rows of a batch for some keys: the ways that the adjustment admits and one of the keys leads to. -/
theorem rows_collectionBatch (hr : r.Unqualified) (hne : inner ≠ middle) {test : Tuple × Tuple → Bool}
    (htest : ∀ way ∈ s.ways db id, (r.admits db (s.relation id).name way.1 &&
      (linkFilter (s.collectionBatch r id opener number inner middle).link keys).holds db
        ((s.wayScope id inner middle [] way).value inner)) = test way) :
    ((s.collectionBatch r id opener number inner middle).forParents keys).rows db =
      (((s.ways db id).filter test).insertionSort (db.wayLe (r.sortKeys (s.target id)))).map fun way =>
        (s.collectionBatch r id opener number inner middle).statement.rowOf
          (s.wayScope id inner middle [] way) := by
  have hconditions : ∀ way ∈ s.ways db id, (((s.hop r opener id).adjustments inner ++
      [linkFilter (s.collectionBatch r id opener number inner middle).link keys]).all fun c =>
        c.holds db ((s.wayScope id inner middle [] way).value inner)) = test way := by
    intro way hway
    rw [List.all_append, all_adjustments hr fun column => wayScope_inner hne column, List.all_cons,
      List.all_nil, Bool.and_true]
    exact htest way hway
  refine (congrArg (List.map Tuple.row) (rowsIn_collection hne hconditions)).trans ?_
  rw [List.map_map]
  refine List.map_congr_left fun way _ => ?_
  simp [Select.rowOf, Select.tupleOf, collectionBatch, Source.tableAlias]

/-- Every row of a batch is made of a way. -/
theorem exists_way_of_mem_rows {row : Row} (hr : r.Unqualified) (hne : inner ≠ middle)
    (hrow : row ∈ ((s.collectionBatch r id opener number inner middle).forParents keys).rows db) :
    ∃ way ∈ s.ways db id, row = (s.collectionBatch r id opener number inner middle).statement.rowOf
      (s.wayScope id inner middle [] way) := by
  rw [rows_collectionBatch hr hne fun way _ => rfl] at hrow
  obtain ⟨way, hway, rfl⟩ := List.mem_map.mp hrow
  exact ⟨way, (List.mem_filter.mp ((List.mem_insertionSort _).mp hway)).1, rfl⟩

section Linked

variable {b : Batch} {linkAlias : String} {parents : KeyMap Value → Prop}

/-- The complete keys of parents are made of the cells of rows along a relation. -/
def KeysFrom (s : Schema) (db : Database) (id : s.RelationId) (parents : KeyMap Value → Prop) : Prop :=
  ∀ values key, parents values → completeKey values (s.relation id).join.left = some key →
    ∃ origin ∈ db.rows (s.entity (s.relation id).source).table,
      (∀ column ∈ (s.relation id).join.left, origin.cell column ≠ .null) ∧
        (s.relation id).join.left.map origin.cell = key

/-- A key for which a batch asks has the cells of some row, none of them null. -/
theorem KeysFrom.exists_origin (hparents : s.KeysFrom db id parents) (hb : s.LinkedBy id b linkAlias)
    (hasks : b.Asks parents keys) {key : List Value} (hkey : key ∈ keys) :
    ∃ origin ∈ db.rows (s.entity (s.relation id).source).table,
      (∀ column ∈ (s.relation id).join.left, origin.cell column ≠ .null) ∧
        (s.relation id).join.left.map origin.cell = key := by
  obtain ⟨values, hvalues, hcomplete⟩ := hasks.source key hkey
  exact hparents values key hvalues (hb.parentColumns ▸ hcomplete)

/-- The filter of a batch lets a scope through whose link is equal to the cells of one of the keys. -/
theorem LinkedBy.holds_linkFilter_iff (hb : s.LinkedBy id b linkAlias) (hasks : b.Asks parents keys)
    (hparents : s.KeysFrom db id parents) {scopeAlias : String}
    (hrow : ∀ column, scope.cell linkAlias column = row.cell column) :
    (linkFilter b.link keys).holds db (scope.value scopeAlias) = true ↔
      ∃ origin ∈ db.rows (s.entity (s.relation id).source).table,
        (s.relation id).join.left.map origin.cell ∈ keys ∧ ∀ pair ∈ (s.relation id).join,
          db.compare .equal (row.cell pair.2) (origin.cell pair.1) = some true := by
  have hlink : b.link = (s.relation id).join.map fun pair => .of linkAlias pair.2 := by
    simp [hb.link, JoinPairs.right]
  rw [holds_linkFilter]
  case hlength =>
    intro key hkey
    obtain ⟨origin, -, -, rfl⟩ := hparents.exists_origin hb hasks hkey
    simp [hlink, JoinPairs.left]
  case hnull =>
    intro key hkey hmem
    obtain ⟨origin, -, hnull, rfl⟩ := hparents.exists_origin hb hasks hkey
    obtain ⟨column, hcolumn, hcell⟩ := List.mem_map.mp hmem
    exact hnull column hcolumn hcell
  have hequal (origin : Tuple) : (∀ e ∈ b.link.zip ((s.relation id).join.left.map origin.cell),
      db.compare .equal (scope.value scopeAlias e.1) e.2 = some true) ↔
      ∀ pair ∈ (s.relation id).join,
        db.compare .equal (row.cell pair.2) (origin.cell pair.1) = some true := by
    rw [hlink, JoinPairs.left, List.map_map, List.zip_map', List.forall_mem_map]
    simp only [Scope.value_of, hrow, Function.comp_apply]
  constructor
  · rintro ⟨key, hkey, hall⟩
    obtain ⟨origin, horigin, -, rfl⟩ := hparents.exists_origin hb hasks hkey
    exact ⟨origin, horigin, hkey, (hequal origin).mp hall⟩
  · rintro ⟨origin, -, hkey, hall⟩
    exact ⟨_, hkey, (hequal origin).mpr hall⟩

variable (hsuits : s.Suits db)
  (hfit : JoinsFit (s.relation id).join (s.relation id).junction (s.entity (s.relation id).source)
    (s.target id))
  (hn : n.columns = (s.entity (s.relation id).source).columns)
  (hasks : (s.collectionBatch r id opener number inner middle).Asks parents keys)
  (hparents : ∀ values, parents values →
    ∃ row ∈ db.rows (s.entity (s.relation id).source).table, values = n.columnsOf row)

include hfit hn hparents

theorem keysFrom_of_rows : s.KeysFrom db id parents := by
  intro values key hvalues hcomplete
  obtain ⟨row, hrow, rfl⟩ := hparents values hvalues
  exact ⟨row, hrow, (Node.completeKey_columnsOf_eq_some (hn ▸ hfit.left)).mp hcomplete⟩

include hasks

include hsuits

/-- Of the ways that a batch's filter lets through, those with the identities of a row's key are the ways
that the join links to the row. -/
theorem holds_linkFilter_and_identity_iff (hrow : row ∈ db.rows (s.entity (s.relation id).source).table)
    (hmem : parents (n.columnsOf row))
    (hnull : ∀ column ∈ (s.relation id).join.left, row.cell column ≠ .null)
    {way : Tuple × Tuple} (hway : way ∈ s.ways db id) :
    ((linkFilter (s.collectionBatch r id opener number inner middle).link keys).holds db
        ((s.wayScope id inner middle [] way).value inner) = true ∧
      ∀ pair ∈ (s.relation id).join, (way.2.cell pair.2).identity = (row.cell pair.1).identity) ↔
      db.joined (s.relation id).join row way.2 = true := by
  obtain ⟨-, hlinkRow⟩ := mem_of_mem_ways hway
  have hb := s.linkedBy_collectionBatch r id opener number inner middle
  have hkeys := keysFrom_of_rows hfit hn hparents
  rw [hb.holds_linkFilter_iff hasks hkeys (wayScope_link hway)]
  simp only [Database.joined, List.all_eq_true, decide_eq_true_eq]
  have hleft {pair : String × String} (hpair : pair ∈ (s.relation id).join) :
      pair.1 ∈ (s.relation id).join.left :=
    List.mem_map_of_mem (f := fun pair : String × String => pair.1) hpair
  constructor
  · rintro ⟨⟨other, hother, -, hequal⟩, hidentity⟩ pair hpair
    have hright : way.2.cell pair.2 ≠ .null := (Database.ne_null_of_equal (hequal pair hpair)).1
    exact (hsuits.equal id pair hpair row hrow _ hlinkRow (hnull _ (hleft hpair)) hright).1.mpr
      (hidentity pair hpair).symm
  · intro hjoined
    have hright {pair : String × String} (hpair : pair ∈ (s.relation id).join) :
        way.2.cell pair.2 ≠ .null := (Database.ne_null_of_equal (hjoined pair hpair)).2
    have hidentity : ∀ pair ∈ (s.relation id).join,
        (row.cell pair.1).identity = (way.2.cell pair.2).identity := fun pair hpair =>
      (hsuits.equal id pair hpair row hrow _ hlinkRow (hnull _ (hleft hpair)) (hright hpair)).1.mp
        (hjoined pair hpair)
    refine ⟨?_, fun pair hpair => (hidentity pair hpair).symm⟩
    -- The key that is asked for may be another row's with the same identities.
    have hcomplete : completeKey (n.columnsOf row) (s.relation id).join.left =
        some ((s.relation id).join.left.map row.cell) :=
      (Node.completeKey_columnsOf_eq_some (hn ▸ hfit.left)).mpr ⟨hnull, rfl⟩
    obtain ⟨key, hkey, hsame⟩ := List.mem_map.mp (hasks.complete _ _ hmem hcomplete)
    obtain ⟨other, hother, hothernull, rfl⟩ := hkeys.exists_origin hb hasks hkey
    refine ⟨other, hother, hkey, fun pair hpair => ?_⟩
    refine (hsuits.equal id pair hpair other hother _ hlinkRow (hothernull _ (hleft hpair))
      (hright hpair)).2.mpr ?_
    rw [← hidentity pair hpair]
    simp only [identities, List.map_map] at hsame
    exact List.map_inj_left.mp hsame pair.1 (hleft hpair)

/-- The rows of a batch that link to a row are the ways along which the row leads. -/
theorem linked_collectionBatch (hr : r.Unqualified) (hne : inner ≠ middle) (hdot : '.' ∉ inner.toList)
    (hnames : ∀ column ∈ (s.target id).columns, ∀ i, column ≠ linkName i)
    (hrow : row ∈ db.rows (s.entity (s.relation id).source).table) (hmem : parents (n.columnsOf row)) :
    (s.collectionBatch r id opener number inner middle).linked (n.columnsOf row)
        (((s.collectionBatch r id opener number inner middle).forParents keys).rows db) =
      (s.waysFrom r db id row).map fun way =>
        (s.collectionBatch r id opener number inner middle).statement.rowOf
          (s.wayScope id inner middle [] way) := by
  have hsub : (s.relation id).join.left ⊆ n.columns := hn ▸ hfit.left
  cases hcomplete : completeKey (n.columnsOf row) (s.relation id).join.left with
  | none =>
    obtain ⟨column, hcolumn, hnull⟩ := (Node.completeKey_columnsOf_eq_none hsub).mp hcomplete
    rw [waysFrom_eq_nil hcolumn hnull, Batch.linked_of_none hcomplete]
    rfl
  | some key =>
    obtain ⟨hnull, rfl⟩ := (Node.completeKey_columnsOf_eq_some hsub).mp hcomplete
    have hlinked (rows : List Row) : (s.collectionBatch r id opener number inner middle).linked
        (n.columnsOf row) rows = rows.filter fun other =>
          (s.collectionBatch r id opener number inner middle).linkOf other =
            identities ((s.relation id).join.left.map row.cell) := by
      simp only [Batch.linked, hcomplete, collectionBatch]
    have hlinkOf : ∀ way ∈ s.ways db id, ((s.collectionBatch r id opener number inner middle).linkOf
        ((s.collectionBatch r id opener number inner middle).statement.rowOf
          (s.wayScope id inner middle [] way)) = identities ((s.relation id).join.left.map row.cell)) ↔
        ∀ pair ∈ (s.relation id).join, (way.2.cell pair.2).identity = (row.cell pair.1).identity := by
      intro way hway
      rw [linkOf_rowOf_collectionBatch hdot hnames, identities, JoinPairs.left, List.map_map,
        List.map_map, List.map_inj_left]
      apply forall₂_congr
      intro pair _
      simp only [wayScope_link hway, Function.comp_apply]
    rw [rows_collectionBatch hr hne fun way _ => rfl, hlinked, List.filter_map, filter_insertionSort,
      List.filter_filter, waysFrom]
    refine congrArg (List.map _) (congrArg _ (List.filter_congr fun way hway => ?_))
    have hjoined := holds_linkFilter_and_identity_iff hsuits hfit hn hasks hparents hrow hmem hnull hway
    rw [← hlinkOf way hway] at hjoined
    rw [Bool.eq_iff_iff]
    simp only [Function.comp_apply, Bool.and_eq_true, decide_eq_true_eq, ← hjoined]
    tauto

end Linked

/-- The ways along which a row leads stand for the rows of its collection, each once. -/
theorem stands_waysFrom (hsuits : s.Suits db) {c : Node} {children : List LoadTree}
    (hc : s.Loads c (s.relation id).target) (hlimit : r.limit = none) {targets : Node → Tuple → List Tuple}
    (htargets : targets c row = (s.target id).once (s.collection r db id row))
    (hne : c.tableAlias ≠ middle) (hchildren : ∀ u ∈ children, u.info.source ≠ c.source) :
    Stands targets (.node c children)
      ((s.waysFrom r db id row).map (s.wayScope id c.tableAlias middle [])) (targets c row) := by
  have hentity : s.target id ∈ s.entities := List.getElem_mem _
  have hrowKey : c.rowKey = (s.target id).identity := hc.rowKey_eq
  have hkey : ∀ way ∈ s.waysFrom r db id row,
      c.scopeKey? (s.wayScope id c.tableAlias middle [] way) = some (c.rowKey way.1) := by
    intro way hway
    refine Node.scopeKey?_of_cell (wayScope_inner hne _) ?_
    rw [hc.primaryKey]
    exact hsuits.key _ hentity _ (mem_of_mem_ways (mem_waysFrom hway)).1
  refine .node ?_ (fun target htarget scope hscope => ?_) fun u hu hsource => ?_
  · rw [htargets, hrowKey, Entity.map_identity_once, ← hrowKey, Node.scopeKeys,
      collection_eq_map_waysFrom hlimit, List.filterMap_map, List.map_map]
    refine congrArg List.eraseDups ((List.filterMap_congr hkey).trans ?_)
    exact congrFun List.filterMap_eq_map' _
  · obtain ⟨hmem, hscopeKey⟩ := Node.mem_scopesOf.mp hscope
    obtain ⟨way, hway, rfl⟩ := List.mem_map.mp hmem
    rw [hkey way hway, hrowKey] at hscopeKey
    have htable : target ∈ db.rows (s.target id).table :=
      collection_subset row (Entity.once_subset (htargets ▸ htarget))
    have heq := List.inj_on_of_nodup_map (hsuits.unique _ hentity)
      (mem_of_mem_ways (mem_waysFrom hway)).1 htable (Option.some.inj hscopeKey)
    exact fun column _ => heq ▸ wayScope_inner hne column
  · exact absurd hsource (hchildren u hu)

end Schema

end EagerLoad
