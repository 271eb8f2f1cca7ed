import EagerLoad.Proofs.Hydration.Labels
import EagerLoad.Proofs.Loading.Origins

/-!
# Batches for some parents and for all

A batch is narrowed to the keys of the parents that are there. If values on the two sides of a join that
have the same identity are equal, then of the rows that link to one of these parents none is left out, and
no other rows are read. So what comes back for a parent does not depend on the other parents.
-/

namespace EagerLoad

open Sql

/-- Entities are declared with their keys, which are never null in the database and tell rows apart, and
values on the two sides of a join are equal if they have the same identity. -/
structure Schema.Keyed (s : Schema) (db : Database) : Prop where
  declared : s.Declared
  key : ∀ e ∈ s.entities, ∀ row ∈ db.rows e.table, row.cell e.primaryKey ≠ .null
  unique : ∀ e ∈ s.entities, ((db.rows e.table).map e.identity).Nodup
  equal : ∀ id : s.RelationId, ∀ pair ∈ (s.relation id).join,
    ∀ left ∈ db.rows (s.entity (s.relation id).source).table, ∀ right ∈ db.rows (s.joinedTable id),
      left.cell pair.1 ≠ .null → right.cell pair.2 ≠ .null →
      (left.cell pair.1).identity = (right.cell pair.2).identity →
      db.compare .equal (right.cell pair.2) (left.cell pair.1) = some true

/-- No relation joins a column that is named like one of a batch's link. -/
def Schema.LinksApart (s : Schema) : Prop :=
  ∀ id : s.RelationId, ∀ column ∈ (s.relation id).join.left, ∀ i, column ≠ linkName i

variable {s : Schema} {db : Database} {d : Draft} {id : s.RelationId} {i : Nat} {b : Batch} {q : Select}
  {scope : Scope} {tableAlias linkAlias column : String} {c c' : Condition} {keys : List (List Value)}
  {values : KeyMap Value} {parents : KeyMap Value → Prop}

theorem Schema.Suits.keyed (h : s.Suits db) : s.Keyed db where
  declared := h.declared
  key := h.key
  unique := h.unique
  equal id pair hpair left hleft right hright hnull hnull' hsame :=
    (h.equal id pair hpair left hleft right hright hnull hnull').2.mpr hsame

namespace Batch

/-- The statement of a batch for all parents: its rows that have a link. -/
def forAll (b : Batch) : Select :=
  b.statement.filtered (.and (b.link.map fun column => .isNull column true))

/-- The first columns that a batch selects are those of its link. -/
theorem SelectsLink.named_linkLabel (h : b.SelectsLink tableAlias) {c : Column}
    (hc : b.link[i]? = some c) (scope : Scope) :
    (b.statement.rowOf scope).named (columnLabel tableAlias (linkName i)) =
      .ok (scope.value b.statement.source.tableAlias c) := by
  obtain ⟨more, -, hprojections⟩ := h.projections
  rw [Select.rowOf, Select.tupleOf, hprojections]
  refine Projection.named_row (fun q hq => ?_) (Projection.mem_ofLink.mpr ⟨i, c, hc, rfl⟩)
    (fun c' hc' => ?_) more
  · obtain ⟨i, c, -, rfl⟩ := Projection.mem_ofLink.mp hq
    exact ⟨_, _, rfl⟩
  · obtain ⟨j, c₁, hc₁, heq⟩ := Projection.mem_ofLink.mp hc'
    injection heq with hcolumn hlabel
    obtain ⟨-, hname⟩ := columnLabel_inj h.dotless h.dotless (Option.some.inj hlabel)
    obtain rfl := linkName_injective hname
    exact hcolumn.trans (Option.some.inj (hc₁.symm.trans hc))

/-- A row has under the labels of the link the values that its scope has for the link's columns. -/
theorem SelectsLink.cells_rowOf (h : b.SelectsLink tableAlias) (scope : Scope) :
    b.linkLabels.map (b.statement.rowOf scope).cell =
      b.link.map (scope.value b.statement.source.tableAlias) := by
  refine List.ext_getElem (by simp [h.linkLabels]) fun i hi hi' => ?_
  rw [List.length_map] at hi'
  have hcell := Row.cell_of_named (h.named_linkLabel (List.getElem?_eq_getElem hi') scope)
  simp [h.linkLabels, hcell]

/-- The link of a row has the identities of the values that its scope has for the link's columns. -/
theorem SelectsLink.linkOf_rowOf (h : b.SelectsLink tableAlias) (scope : Scope) :
    b.linkOf (b.statement.rowOf scope) =
      b.link.map fun c => (scope.value b.statement.source.tableAlias c).identity := by
  rw [linkOf, h.cells_rowOf, identities, List.map_map]
  rfl

end Batch

namespace Database

instance (tableAlias : String) (ordering : List (Column × Direction)) :
    IsTrans Scope fun a b => db.scopeLe tableAlias ordering a b = true :=
  ⟨fun _ _ _ => lexLe_trans⟩

instance (tableAlias : String) (ordering : List (Column × Direction)) :
    Std.Total fun a b => db.scopeLe tableAlias ordering a b = true :=
  ⟨fun a b => db.lexLe_total ordering (·.2) (fun key => a.value tableAlias key.1)
    fun key => b.value tableAlias key.1⟩

end Database

/-- The rows of a statement with a further condition. -/
theorem Sql.Select.rows_filtered (q : Select) (c : Condition) : (q.filtered c).rows db =
    (page q.limit q.offset (((q.scopes db).filter fun scope => (q.conditions ++ [c]).all fun c =>
      c.holds db (scope.value q.source.tableAlias)).insertionSort fun a b =>
        db.scopeLe q.source.tableAlias q.ordering a b)).map q.rowOf :=
  (q.filtered c).rows_eq

/-- Of the rows of a statement that is narrowed by a condition, those that pass a test depend on the
condition for the scopes of such rows only. -/
theorem Sql.Select.filter_filtered_congr (hunlimited : q.limit = none ∧ q.offset = none)
    {test : Row → Bool} (h : ∀ scope ∈ q.scopes db, test (q.rowOf scope) = true →
      (c.holds db (scope.value q.source.tableAlias) = true ↔
        c'.holds db (scope.value q.source.tableAlias) = true)) :
    ((q.filtered c).rows db).filter test = ((q.filtered c').rows db).filter test := by
  have hpage (l : List Scope) : page q.limit q.offset l = l := by
    rw [hunlimited.1, hunlimited.2]
    rfl
  simp only [rows_filtered, hpage, List.filter_map, filter_insertionSort, List.filter_filter]
  refine congrArg (List.map _) (congrArg _ (List.filter_congr fun scope hscope => ?_))
  rw [Bool.eq_iff_iff]
  simp only [Function.comp_apply, List.all_append, List.all_cons, List.all_nil, Bool.and_true,
    Bool.and_eq_true]
  exact and_congr_right fun htest => and_congr_right fun _ => h scope hscope htest

/-- A column is tested for not being null. -/
theorem Sql.Condition.holds_isNotNull {value : Column → Value} {column : Column} :
    (Condition.isNull column true).holds db value = true ↔ value column ≠ .null := by
  rw [holds_iff, eval, ne_eq, ← Value.isNull_iff]
  simp

namespace Draft.LinksTo

/-- The rows that link to a parent are the same if a batch is put for some parents, of which this is one,
and for all. -/
theorem linked_forParents (h : d.LinksTo s db id b linkAlias) (hasks : b.Asks parents keys)
    (hparents : s.KeysFrom db id parents) (hselects : b.SelectsLink tableAlias) (hkeyed : s.Keyed db)
    (hvalues : parents values) :
    b.linked values ((b.forParents keys).rows db) = b.linked values (b.forAll.rows db) := by
  cases hcomplete : completeKey values b.parentColumns with
  | none => rw [Batch.linked_of_none hcomplete, Batch.linked_of_none hcomplete]
  | some key =>
    simp only [Batch.linked, hcomplete]
    refine Select.filter_filtered_congr hselects.unlimited fun scope hscope hsame => ?_
    obtain ⟨row, hrow, hcell⟩ := h.draws scope hscope
    have hlink : b.link = (s.relation id).join.map fun pair => .of linkAlias pair.2 := by
      simp [h.linked.link, JoinPairs.right]
    rw [h.linked.holds_linkFilter_iff hasks hparents hcell, Condition.holds_and, hlink, List.map_map,
      List.forall_mem_map]
    simp only [Function.comp_apply, Condition.holds_isNotNull, Scope.value_of, hcell]
    constructor
    · rintro ⟨origin, -, -, hequal⟩ pair hpair
      exact (Database.ne_null_of_equal (hequal pair hpair)).1
    · intro hnull
      -- The key that is asked for may be another parent's with the same identities.
      obtain ⟨other, hother, hidentity⟩ := List.mem_map.mp (hasks.complete values key hvalues hcomplete)
      obtain ⟨origin, horigin, horiginNull, rfl⟩ := hparents.exists_origin h.linked hasks hother
      refine ⟨origin, horigin, hother, fun pair hpair => ?_⟩
      refine hkeyed.equal id pair hpair origin horigin row hrow ?_ (hnull pair hpair) ?_
      · exact horiginNull _ (List.mem_map_of_mem (f := fun pair : String × String => pair.1) hpair)
      · have hrowLink := (hselects.linkOf_rowOf scope).symm.trans (of_decide_eq_true hsame)
        rw [← hidentity, hlink, identities, JoinPairs.left, List.map_map, List.map_map, List.map_map,
          List.map_inj_left] at hrowLink
        have hpairs := hrowLink pair hpair
        simp only [Function.comp_apply, Scope.value_of, hcell] at hpairs
        exact hpairs.symm

end Draft.LinksTo

end EagerLoad
