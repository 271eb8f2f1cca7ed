import EagerLoad.Proofs.Loading.Bringing
import EagerLoad.Proofs.Plan.Labels
import EagerLoad.Proofs.Plan.Scopes

/-!
# What attaching a hop does to a draft

A hop is attached in the statement of its parent, which gets joins and the columns of the target, or it
opens a batch. Each way takes the aliases that its statement introduces from the supply, in order. The
junction stands under `middle`; where there is none, that is some alias that is not given out.
-/

namespace EagerLoad

open Sql

namespace Entity

variable {e : Entity} {column tableAlias : String} {ordering : List SortKey}
  {order : List (Column × Direction)}

theorem requireColumn_eq_ok : e.requireColumn column = .ok () ↔ column ∈ e.columns := by
  simp [requireColumn, hasColumn]

/-- The ordering of a collection is on columns of the target. -/
theorem columns_of_collectionOrder (hdeclared : e.Declared)
    (h : e.collectionOrder tableAlias ordering = .ok order) :
    ∀ key ∈ order, ∃ column ∈ e.columns, key.1 = .of tableAlias column := by
  cases ordering with
  | nil =>
    cases h
    exact List.forall_mem_singleton.mpr ⟨_, hdeclared.primaryKey_mem, rfl⟩
  | cons o rest =>
    obtain ⟨_, hrequired, h⟩ := bind_eq_ok.mp h
    cases h
    have hcolumns : ∀ keys : List SortKey, keys.forM (fun o => e.requireColumn o.column) = .ok () →
        ∀ o ∈ keys, o.column ∈ e.columns := by
      intro keys
      induction keys with
      | nil => simp
      | cons o rest ih =>
        intro h
        obtain ⟨_, ho, h⟩ := bind_eq_ok.mp h
        exact List.forall_mem_cons.mpr ⟨requireColumn_eq_ok.mp ho, ih h⟩
    intro key hkey
    obtain ⟨o, ho, rfl⟩ := List.mem_map.mp hkey
    exact ⟨o.column, hcolumns _ hrequired o ho, rfl⟩

end Entity

namespace Schema

variable {s : Schema} {r : Request} {id : s.RelationId} {m : Node} {d : Draft} {a : Attachment}
  {ordering : List SortKey}

/-- The batch that a hop opens for a node. -/
def collectionBatch (s : Schema) (r : Request) (id : s.RelationId) (m : Node) (node : Nat)
    (tableAlias middle : String) : Batch :=
  let link := (s.relation id).join.right.map (Column.of (s.linkAlias id tableAlias middle))
  { node
    statement :=
      { source := .table (s.target id).table tableAlias
        projections := Projection.ofLink tableAlias link ++
          labelledColumns tableAlias (s.target id).columns
        joins := s.linkJoins id tableAlias middle
        conditions := (s.hop r m id).adjustments tableAlias
        ordering := orderingOn tableAlias (r.sortKeys (s.target id)) }
    parentColumns := (s.relation id).join.left
    link
    linkLabels := (List.range link.length).map fun i => columnLabel tableAlias (linkName i) }

/-- A batch is compared with its parents along a relation: columns of an alias with columns of the parents. -/
structure LinkedBy (s : Schema) (id : s.RelationId) (b : Batch) (linkAlias : String) : Prop where
  parentColumns : b.parentColumns = (s.relation id).join.left
  link : b.link = (s.relation id).join.right.map (.of linkAlias)

theorem linkedBy_collectionBatch (s : Schema) (r : Request) (id : s.RelationId) (m : Node) (node : Nat)
    (tableAlias middle : String) :
    s.LinkedBy id (s.collectionBatch r id m node tableAlias middle) (s.linkAlias id tableAlias middle) :=
  ⟨rfl, rfl⟩

/-- A computation whose first step depends on a test. -/
theorem ite_bind_eq_ok {ε α β : Type} {c : Prop} [Decidable c] {x y : Except ε α} {f : α → Except ε β}
    {b : β} : (if c then x >>= f else y >>= f) = .ok b ↔
      ∃ a, (if c then x else y) = .ok a ∧ f a = .ok b := by
  by_cases hc : c
  · rw [if_pos hc, if_pos hc]
    exact bind_eq_ok
  · rw [if_neg hc, if_neg hc]
    exact bind_eq_ok

/-- A to-one hop joins its target to the statement of the parent. -/
theorem joinDirect_eq (s : Schema) (r : Request) (id : s.RelationId) (m : Node) (d : Draft) :
    ∃ middle tableAlias tables,
      Join.aliasesAll (s.partnerJoins r id m middle tableAlias) = d.aliases.takeAll tables ∧
      tableAlias ∈ d.aliases.takeAll tables ∧ ¬d.aliases.Given middle ∧ middle ≠ tableAlias ∧
      (s.hop r m id).joinDirect d = ⟨.joined, m.source, tableAlias,
        { d with aliases := d.aliases.after tables }.modify m.source
          (Select.bringIn (s.partnerJoins r id m middle tableAlias) tableAlias (s.target id).columns)⟩ := by
  cases hj : (s.relation id).junction with
  | some junction =>
    have hjunction : (s.hop r m id).junction = some junction := hj
    refine ⟨_, ((d.aliases.take junction.table).2.take (s.target id).table).1,
      [junction.table, (s.target id).table], ?_, by simp [AliasSupply.takeAll],
      d.aliases.not_given_take junction.table,
      (d.aliases.given_take junction.table).ne_take, ?_⟩
    · simp only [partnerJoins, hj]
      rfl
    · simp only [Hop.joinDirect, partnerJoins, hj, hjunction]
      rfl
  | none =>
    have hjunction : (s.hop r m id).junction = none := hj
    refine ⟨((d.aliases.take (s.target id).table).2.take "").1, _, [(s.target id).table], ?_,
      List.mem_singleton_self _, fun hgiven => hgiven.take.ne_take rfl,
      (d.aliases.given_take (s.target id).table).ne_take.symm, ?_⟩
    · simp only [partnerJoins, hj]
      rfl
    · simp only [Hop.joinDirect, partnerJoins, hj, hjunction]
      rfl

/-- A hop to the root's own type joins its table on a column of the parent. -/
theorem joinSelf_eq {selfKey : String} (h : (s.hop r m id).joinSelf selfKey ordering d = .ok a) :
    ∃ column ∈ (s.entity (s.relation id).source).columns,
      [a.tableAlias] = d.aliases.takeAll [(s.target id).table] ∧
      a = ⟨.selfAliased, m.source, a.tableAlias,
        { d with
          aliases := d.aliases.after [(s.target id).table]
          notes := d.notes.multiply m.source }.modify m.source
          (Select.bringIn [⟨.inner, .table (s.target id).table, a.tableAlias,
            (s.hop r m id).adjusted a.tableAlias
              (.columnsEqual (.of m.tableAlias column) (.of a.tableAlias selfKey))⟩]
            a.tableAlias (s.target id).columns)⟩ := by
  obtain ⟨_, hcolumn, h⟩ := bind_eq_ok.mp h
  rw [← Except.ok.inj h]
  exact ⟨_, Entity.requireColumn_eq_ok.mp hcolumn, rfl, rfl⟩

/-- A bounded hop joins a sub-select to the statement of the parent. -/
theorem joinLateral_eq {limit : Nat} (h : (s.hop r m id).joinLateral limit ordering d = .ok a) :
    ∃ inner middle tables order, (s.target id).collectionOrder inner ordering = .ok order ∧
      inner :: Join.aliasesAll (s.linkJoins id inner middle) ++ [a.tableAlias] =
        d.aliases.takeAll tables ∧ ¬d.aliases.Given middle ∧ inner ≠ middle ∧
      a = ⟨.boundedLateral, m.source, a.tableAlias,
        { d with aliases := d.aliases.after tables, notes := d.notes.multiply m.source }.modify m.source
          (Select.bringIn [⟨.left,
            .lateral { s.collectionSelect r id m inner middle limit with ordering := order },
            a.tableAlias, .literal true⟩] a.tableAlias (s.target id).columns)⟩ := by
  have hinner := d.aliases.given_take (s.target id).table
  have hmiddle (table : String) : ¬d.aliases.Given ((d.aliases.take (s.target id).table).2.take table).1 :=
    fun hgiven => hgiven.take.ne_take rfl
  unfold Hop.joinLateral at h
  obtain ⟨order, horder, h⟩ := bind_eq_ok.mp h
  cases hj : (s.relation id).junction with
  | some junction =>
    have hjunction : (s.hop r m id).junction = some junction := hj
    simp only [hjunction] at h
    rw [← Except.ok.inj h]
    refine ⟨_, _, [(s.target id).table, junction.table, (s.target id).table], order, horder, ?_,
      hmiddle junction.table, hinner.ne_take, ?_⟩
    · simp only [linkJoins, hj]
      rfl
    · simp only [collectionSelect, linkJoins, linkAlias, hj]
      rfl
  | none =>
    have hjunction : (s.hop r m id).junction = none := hj
    simp only [hjunction] at h
    rw [← Except.ok.inj h]
    refine ⟨_, _, [(s.target id).table, (s.target id).table], order, horder, ?_, hmiddle "",
      hinner.ne_take, ?_⟩
    · simp only [linkJoins, hj]
      rfl
    · simp only [collectionSelect, linkJoins, linkAlias, hj]
      rfl

/-- A hop that is not bounded opens a batch. -/
theorem loadBatch_eq (h : (s.hop r m id).loadBatch ordering d = .ok a) :
    ∃ middle tables order,
      (if ordering.isEmpty then .ok [] else (s.target id).collectionOrder a.tableAlias ordering) =
        .ok order ∧
      a.tableAlias :: Join.aliasesAll (s.linkJoins id a.tableAlias middle) =
        d.aliases.takeAll tables ∧ a.tableAlias ≠ middle ∧
      let batch := s.collectionBatch r id m (d.others.length + 1) a.tableAlias middle
      a = ⟨.batched, .batch d.batches.length, a.tableAlias,
        { d with
          aliases := d.aliases.after tables
          batches := d.batches ++
            [{ batch with statement := { batch.statement with ordering := order } }] }⟩ := by
  have hown := d.aliases.given_take (s.target id).table
  unfold Hop.loadBatch at h
  cases hj : (s.relation id).junction with
  | some junction =>
    have hjunction : (s.hop r m id).junction = some junction := hj
    simp only [hjunction] at h
    obtain ⟨order, horder, h⟩ := ite_bind_eq_ok.mp h
    rw [← Except.ok.inj h]
    refine ⟨((d.aliases.take (s.target id).table).2.take junction.table).1,
      [(s.target id).table, junction.table], order, horder, ?_, hown.ne_take, ?_⟩
    · simp only [linkJoins, hj]
      rfl
    · simp only [collectionBatch, linkJoins, linkAlias, hj]
      rfl
  | none =>
    have hjunction : (s.hop r m id).junction = none := hj
    simp only [hjunction] at h
    obtain ⟨order, horder, h⟩ := ite_bind_eq_ok.mp h
    rw [← Except.ok.inj h]
    refine ⟨((d.aliases.take (s.target id).table).2.take "").1, [(s.target id).table], order, horder,
      ?_, hown.ne_take, ?_⟩
    · simp only [linkJoins, hj]
      rfl
    · simp only [collectionBatch, linkJoins, linkAlias, hj]
      rfl

end Schema

end EagerLoad
