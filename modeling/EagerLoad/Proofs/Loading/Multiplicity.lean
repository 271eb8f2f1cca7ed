import EagerLoad.Proofs.Loading.Narrowing
import EagerLoad.Proofs.Plan.Batches

/-!
# Root rows with a single scope

Where only to-one relations are joined into the primary statement, a root row is extended to one scope, if
each of these relations leads to one target at most and no junction has two rows for one source row. The
second condition is not for the target alone: two rows of a junction give two scopes even if they lead to
the same target, or one of them to none.
-/

namespace EagerLoad

open Sql

variable {s : Schema} {r : Request} {db : Database} {root : s.EntityId} {hops : List s.RelationId}
  {d : Draft} {id : s.RelationId} {m : Node} {scope : Scope} {tableAlias middle scopeAlias : String}
  {pairs : JoinPairs} {left : String} {row : Tuple} {rows : List Tuple}

namespace Schema

/-- A to-one relation leads from a row to one target at most. -/
def LeadsToOne (s : Schema) (r : Request) (db : Database) : Prop :=
  ∀ id : s.RelationId, (s.relation id).cardinality = .one →
    ∀ row ∈ db.rows (s.entity (s.relation id).source).table, (s.targets r db id row).length ≤ 1

/-- The junction of a to-one relation has one row at most for a row of its source. -/
def LinksOnce (s : Schema) (db : Database) : Prop :=
  ∀ id : s.RelationId, (s.relation id).cardinality = .one →
    ∀ junction, (s.relation id).junction = some junction →
      ∀ row ∈ db.rows (s.entity (s.relation id).source).table,
        ((db.rows junction.table).filter (db.joined (s.relation id).join row)).length ≤ 1

end Schema

/-- Rows that differ in their keys are all left. -/
theorem Entity.length_once {e : Entity} (h : (rows.map e.identity).Nodup) :
    (e.once rows).length = rows.length := by
  rw [← List.length_map (f := e.identity), map_identity_once, eraseDups_of_nodup h, List.length_map]

/-- One row at most is padded to one row. -/
theorem length_padded {nulls : Tuple} (h : rows.length ≤ 1) : (padded nulls rows).length = 1 := by
  cases rows with
  | nil => rfl
  | cons row rest => exact le_antisymm h (Nat.succ_le_succ (Nat.zero_le _))

namespace Schema

/-- The targets that are joined to a row by some pairs. -/
def matching (s : Schema) (r : Request) (db : Database) (id : s.RelationId) (pairs : JoinPairs)
    (row : Tuple) : List Tuple :=
  (db.rows (s.target id).table).filter fun target =>
    db.joined pairs row target && r.admits db (s.relation id).name target

/-- A row that is null where it is joined has no targets. -/
theorem matching_eq_nil {column : String} (hcolumn : column ∈ pairs.left) (hnull : row.cell column = .null) :
    s.matching r db id pairs row = [] := by
  apply List.filter_eq_nil_iff.mpr
  intro target _
  simp [Database.joined_eq_false hcolumn hnull]

theorem nodup_matching (hkeyed : s.Keyed db) :
    ((s.matching r db id pairs row).map (s.target id).identity).Nodup :=
  (hkeyed.unique _ (List.getElem_mem _)).sublist (List.filter_sublist.map _)

/-- The partners of a row are what its junction rows match, or what it matches itself. -/
theorem partners_of_direct (hj : (s.relation id).junction = none) :
    s.partners r db id row = s.matching r db id (s.relation id).join row := by
  simp only [partners, hj]
  rfl

theorem partners_of_junction {junction : Junction} (hj : (s.relation id).junction = some junction) :
    s.partners r db id row = ((db.rows junction.table).filter (db.joined (s.relation id).join row)).flatMap
      (s.matching r db id junction.target) := by
  simp only [partners, hj]
  rfl

section ToOne

variable (hkeyed : s.Keyed db) (hone : (s.relation id).cardinality = .one) (hlinks : s.LinksOnce db)

include hkeyed hone hlinks

/-- Where junctions link once, a row has no partner twice. -/
theorem nodup_partners (hrow : row ∈ db.rows (s.entity (s.relation id).source).table) :
    ((s.partners r db id row).map (s.target id).identity).Nodup := by
  cases hj : (s.relation id).junction with
  | none => exact partners_of_direct hj ▸ nodup_matching hkeyed
  | some junction =>
    rw [partners_of_junction hj]
    have hlink := hlinks id hone junction hj row hrow
    generalize (db.rows junction.table).filter (db.joined (s.relation id).join row) = links at hlink
    match links, hlink with
    | [], _ => exact .nil
    | [link], _ =>
      rw [List.flatMap_singleton]
      exact nodup_matching hkeyed

variable (hleads : s.LeadsToOne r db)

include hleads

/-- Where junctions link once, a row has one partner at most. -/
theorem length_partners_le (hrow : row ∈ db.rows (s.entity (s.relation id).source).table) :
    (s.partners r db id row).length ≤ 1 := by
  have htargets := hleads id hone row hrow
  rwa [targets, hone, Entity.length_once (nodup_partners hkeyed hone hlinks hrow)] at htargets

end ToOne

/-- A row that matches one target at most has one scope after the join of the target's table. -/
theorem length_extendAll_targetJoin (hr : r.Unqualified) (hne : left ≠ tableAlias)
    (hleft : ∀ column ∈ pairs.left, scope.cell left column = row.cell column)
    (hmatching : (s.matching r db id pairs row).length ≤ 1) :
    (Join.extendAll db scopeAlias [s.targetJoin r id m pairs left tableAlias] scope).length = 1 := by
  rw [extendAll_targetJoin hr hne hleft, List.length_map]
  exact length_padded hmatching

end Schema

/-- What is drawn from rows has the columns of one of them, or of a row of nulls. -/
theorem Scope.Draws.exists_row {columns : List String} (h : scope.Draws tableAlias columns rows) :
    ∃ row, (∀ column ∈ columns, scope.cell tableAlias column = row.cell column) ∧
      (row ∈ rows ∨ ∀ column, row.cell column = .null) := by
  rcases h with hnull | ⟨row, hrow, hcells⟩
  · exact ⟨.nulls [], fun column _ => by rw [hnull, Tuple.cell_nulls], .inr fun column => Tuple.cell_nulls _ _⟩
  · exact ⟨row, hcells, .inl hrow⟩

namespace Schema

/-- The joins of a to-one hop extend a scope to one. -/
theorem length_extendAll_partnerJoins (hr : r.Unqualified) (hkeyed : s.Keyed db)
    (hleads : s.LeadsToOne r db) (hlinks : s.LinksOnce db)
    (hfit : JoinsFit (s.relation id).join (s.relation id).junction (s.entity (s.relation id).source)
      (s.target id))
    (hone : (s.relation id).cardinality = .one)
    (hm : m.columns = (s.entity (s.relation id).source).columns) (hmiddle : m.tableAlias ≠ middle)
    (hown : m.tableAlias ≠ tableAlias) (hne : middle ≠ tableAlias)
    (hdraws : scope.Draws m.tableAlias m.columns (db.rows (s.entity (s.relation id).source).table)) :
    (Join.extendAll db scopeAlias (s.partnerJoins r id m middle tableAlias) scope).length = 1 := by
  obtain ⟨row, hcells, hrow⟩ := hdraws.exists_row
  have hleft : ∀ column ∈ (s.relation id).join.left, scope.cell m.tableAlias column = row.cell column :=
    fun column hcolumn => hcells column (hm ▸ hfit.left hcolumn)
  obtain ⟨first, hfirst⟩ := List.exists_mem_of_ne_nil _ hfit.join_ne_nil
  have hfirstLeft : first.1 ∈ (s.relation id).join.left := List.mem_map_of_mem hfirst
  unfold partnerJoins
  cases hj : (s.relation id).junction with
  | none =>
    refine length_extendAll_targetJoin hr hown hleft ?_
    rcases hrow with hrow | hnull
    · rw [← partners_of_direct hj]
      exact length_partners_le hkeyed hone hlinks hleads hrow
    · rw [matching_eq_nil hfirstLeft (hnull _)]
      exact Nat.zero_le 1
  | some junction =>
    obtain ⟨htarget, -⟩ := hfit.through junction hj
    obtain ⟨second, hsecond⟩ := List.exists_mem_of_ne_nil _ htarget
    have hsecondLeft : second.1 ∈ junction.target.left := List.mem_map_of_mem hsecond
    -- A row of nulls links to no junction row, and one in place of the junction's matches no target.
    have hlinked : ((db.rows junction.table).filter (db.joined (s.relation id).join row)).length ≤ 1 ∧
        ∀ link ∈ (db.rows junction.table).filter (db.joined (s.relation id).join row),
          (s.matching r db id junction.target link).length ≤ 1 := by
      rcases hrow with hrow | hnull
      · have hlink := hlinks id hone junction hj row hrow
        have hpartners := length_partners_le hkeyed hone hlinks hleads hrow
        rw [partners_of_junction hj] at hpartners
        refine ⟨hlink, fun link hmem => ?_⟩
        obtain ⟨only, honly⟩ :=
          List.length_eq_one_iff.mp (le_antisymm hlink (List.length_pos_of_mem hmem))
        rw [honly, List.flatMap_singleton] at hpartners
        rw [honly] at hmem
        exact List.mem_singleton.mp hmem ▸ hpartners
      · have hnone : (db.rows junction.table).filter (db.joined (s.relation id).join row) = [] := by
          apply List.filter_eq_nil_iff.mpr
          intro link _
          simp [Database.joined_eq_false hfirstLeft (hnull _)]
        simp [hnone]
    have hsingle : ∀ link ∈ padded (.nulls (db.columns junction.table))
        ((db.rows junction.table).filter (db.joined (s.relation id).join row)),
          (s.matching r db id junction.target link).length ≤ 1 := by
      intro link hmem
      rcases mem_padded hmem with rfl | hmem
      · rw [matching_eq_nil hsecondLeft (Tuple.cell_nulls _ _)]
        exact Nat.zero_le 1
      · exact hlinked.2 link hmem
    obtain ⟨link, hlink⟩ := List.length_eq_one_iff.mp (length_padded hlinked.1)
    rw [Join.extendAll_cons, JoinTarget.rowsIn_table, extend_pairsEqual hmiddle hleft, JoinTarget.columns,
      hlink, List.map_singleton, List.flatMap_singleton]
    refine length_extendAll_targetJoin hr hne (fun column _ => Scope.cell_cons_self column) ?_
    exact hsingle link (hlink ▸ List.mem_singleton_self _)

end Schema

/-- Where no node multiplies the rows of the primary statement, a root row has a single scope. -/
theorem Schema.Compiling.length_scopes (h : s.Compiling r root hops d) (hr : r.Unqualified)
    (hkeyed : s.Keyed db) (hleads : s.LeadsToOne r db) (hlinks : s.LinksOnce db)
    (hfit : ∀ id : s.RelationId, JoinsFit (s.relation id).join (s.relation id).junction
      (s.entity (s.relation id).source) (s.target id))
    (hdirect : ∀ n ∈ d.others, Plan.multiplies n = false) (hrow : row ∈ db.rows (s.entity root).table) :
    (d.scopes db row).length = 1 := by
  induction h with
  | start => rfl
  | reuse _ _ ih => exact ih hdirect
  | @attach hops d d' id m n h hmem hsource _ ha ih =>
    obtain ⟨a, hplace, hn, hd'⟩ := Hop.attach_eq_ok ha
    obtain ⟨hroot, hothers⟩ := Hop.nodes_of_attach ha
    have hsingle := ih fun k hk => hdirect k (hothers ▸ List.mem_append_left _ hk)
    have hkept (hprimary : d'.primary = d.primary) : (d'.scopes db row).length = 1 := by
      rw [Draft.scopes, hroot, hprimary]
      exact hsingle
    rcases Schema.joinsInto_or_opensOwn hplace with ⟨joins, tables, hj⟩ | ⟨batch, tables, ho⟩
    · obtain ⟨notes, hdraft⟩ := hj.draft
      by_cases hjoined : m.source = .primary
      · have hprimary : d'.primary = d.primary.bringIn joins a.tableAlias (s.target id).columns := by
          rw [hd', Draft.primary_entrust, hdraft, hjoined]
          rfl
        have hscopes : d'.scopes db row =
            (d.scopes db row).flatMap (Join.extendAll db d.root.tableAlias joins) := by
          rw [Draft.scopes, Draft.scopes, hroot, hprimary, ← Join.extendAll_append]
          rfl
        have hnew := hdirect n (hothers ▸ List.mem_append_right _ (List.mem_singleton_self n))
        have hn' : n.source = .primary ∧ n.strategy = a.strategy := hn ▸ ⟨hj.source.trans hjoined, rfl⟩
        simp only [Plan.multiplies, hn', decide_true, Bool.true_and, Bool.or_eq_false_iff,
          decide_eq_false_iff_not] at hnew
        obtain ⟨hone, middle, hmiddle, hne, rfl⟩ := hj.direct hnew.1 hnew.2
        have hgiven := h.projecting.given m hmem
        obtain ⟨e, he⟩ := h.opening.loads m hmem
        obtain rfl : e = (s.relation id).source := Fin.ext (he.entity.symm.trans hsource)
        obtain ⟨scope, hscope⟩ := List.length_eq_one_iff.mp hsingle
        have hmemScope : scope ∈ d.primary.scopes db := by
          have hmemRow : scope ∈ d.scopes db row := hscope ▸ List.mem_singleton_self scope
          exact h.projecting.scopes_primary ▸ List.mem_flatMap.mpr ⟨row, hrow, hmemRow⟩
        have hdraws := (h.drawing db).node m hmem d.primary [] (hjoined ▸ rfl) _ he scope hmemScope
        rw [hscopes, hscope, List.flatMap_singleton]
        exact Schema.length_extendAll_partnerJoins hr hkeyed hleads hlinks (hfit id) hone he.columns
          (fun heq => hmiddle (heq ▸ hgiven))
          (fun heq => (AliasSupply.given_of_mem_takeAll hj.own).2 (heq ▸ hgiven)) hne hdraws
      · refine hkept ?_
        rw [hd', Draft.primary_entrust, hdraft]
        cases hbatch : m.source with
        | primary => exact absurd hbatch hjoined
        | batch i => rfl
    · exact hkept (by rw [hd', Draft.primary_entrust, ho.draft])

end EagerLoad
