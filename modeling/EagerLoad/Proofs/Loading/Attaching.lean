import EagerLoad.Proofs.Plan.Attachments

/-!
# Attaching hops without a self key

Without a self key a hop is attached in the statement of its parent, by joins that bring in the rows to
which a row of the parent leads, or it opens a batch whose statement selects its collection.
-/

namespace EagerLoad

open Sql

namespace Schema

variable {s : Schema} {r : Request} {db : Database} {id : s.RelationId} {d : Draft} {m : Node}
  {a : Attachment}

/-- The rows to which a row leads along a relation, each once for every way. -/
def led (s : Schema) (r : Request) (db : Database) (id : s.RelationId) : Tuple → List Tuple :=
  match (s.relation id).cardinality with
  | .one => s.partners r db id
  | .many => s.collection r db id

theorem targets_eq_once (row : Tuple) : s.targets r db id row = (s.target id).once (s.led r db id row) := by
  unfold targets led
  cases (s.relation id).cardinality <;> rfl

theorem led_subset (row : Tuple) : s.led r db id row ⊆ db.rows (s.target id).table := by
  unfold led
  cases (s.relation id).cardinality with
  | one => exact partners_subset row
  | many => exact collection_subset row

/-- A hop is attached by left joins in the statement of its parent. Under their aliases, which are new,
they bring in the rows to which a row of the parent leads. -/
structure Joined (s : Schema) (r : Request) (db : Database) (id : s.RelationId) (d : Draft) (m : Node)
    (a : Attachment) (joins : List Join) (aliases : AliasSupply) : Prop where
  source : a.source = m.source
  strategy : a.strategy ≠ .batched
  draft : ∃ notes, a.draft = { d with aliases, notes }.modify m.source
    (Select.bringIn joins a.tableAlias (s.target id).columns)
  used : d.aliases.used ≤ aliases.used
  given : aliases.Given a.tableAlias
  fresh : ∀ other, d.aliases.Given other → other ∉ joins.map (·.tableAlias)
  left : ∀ join ∈ joins, join.kind = .left
  brings : ∀ n scopeAlias, s.Loads n (s.relation id).target → n.tableAlias = a.tableAlias →
    Brings db scopeAlias joins m n (db.rows (s.target id).table) (s.led r db id)

/-- The ordering of a collection is on the columns of its alias. -/
theorem collectionOrder_eq_ok {e : Entity} {tableAlias : String} {ordering : List SortKey}
    {order : List (Column × Direction)} (h : e.collectionOrder tableAlias ordering = .ok order) :
    order = orderingOn tableAlias
      (if ordering.isEmpty then [⟨e.primaryKey, .descending⟩] else ordering) := by
  cases ordering with
  | nil =>
    cases h
    rfl
  | cons o rest =>
    obtain ⟨_, -, h⟩ := bind_eq_ok.mp h
    cases h
    rfl

/-- Joins that take their aliases stand under new ones. -/
theorem not_given_of_mem_joins {joins : List Join} {tables : List String} {tableAlias : String}
    (hnew : Join.aliasesAll joins = d.aliases.takeAll tables)
    (hmem : tableAlias ∈ joins.map (·.tableAlias)) : ¬d.aliases.Given tableAlias := by
  obtain ⟨join, hjoin, rfl⟩ := List.mem_map.mp hmem
  exact (AliasSupply.given_of_mem_takeAll (hnew ▸ Join.tableAlias_mem_aliasesAll hjoin)).2

/-- The attachment of a hop that opens a batch. -/
theorem loadBatch_eq_ok (hlimit : r.limit = none)
    (h : (s.hop r m id).loadBatch r.ordering d = .ok a) :
    ∃ middle aliases, d.aliases.used ≤ aliases.used ∧ aliases.Given a.tableAlias ∧
      a.tableAlias ≠ middle ∧ a = ⟨.batched, .batch d.batches.length, a.tableAlias,
        { d with
          aliases
          batches := d.batches ++
            [s.collectionBatch r id m (d.others.length + 1) a.tableAlias middle] }⟩ := by
  obtain ⟨middle, tables, order, horder, hnew, hne, ha⟩ := loadBatch_eq h
  have hown : a.tableAlias ∈ d.aliases.takeAll tables := hnew ▸ List.mem_cons_self
  have hkeys : order = orderingOn a.tableAlias (r.sortKeys (s.target id)) := by
    rw [Request.sortKeys, hlimit, Option.isSome_none, Bool.and_false, if_neg Bool.false_ne_true]
    split at horder
    · rename_i hempty
      cases horder
      rw [List.isEmpty_iff.mp hempty]
      rfl
    · rename_i hempty
      rw [collectionOrder_eq_ok horder, if_neg hempty]
  refine ⟨middle, d.aliases.after tables, Nat.le_add_right _ _,
    (AliasSupply.given_of_mem_takeAll hown).1, hne, ?_⟩
  rw [hkeys] at ha
  exact ha

variable (hr : r.Unqualified) (hsuits : s.Suits db)
  (hfit : JoinsFit (s.relation id).join (s.relation id).junction (s.entity (s.relation id).source)
    (s.target id))
  (hm : m.columns = (s.entity (s.relation id).source).columns) (hgiven : d.aliases.Given m.tableAlias)

include hr hsuits hfit hm hgiven

/-- A to-one hop is attached by joins of its target. -/
theorem joined_joinDirect (hone : (s.relation id).cardinality = .one) :
    ∃ joins aliases, s.Joined r db id d m ((s.hop r m id).joinDirect d) joins aliases := by
  obtain ⟨middle, tableAlias, tables, hnew, hown, hmiddle, hne, ha⟩ := s.joinDirect_eq r id m d
  have hled : s.led r db id = s.partners r db id := by simp only [led, hone]
  obtain ⟨hgivenOwn, hfresh⟩ := AliasSupply.given_of_mem_takeAll hown
  rw [ha]
  refine ⟨_, _, rfl, by simp, ⟨_, rfl⟩, Nat.le_add_right _ _, hgivenOwn, fun other hother hmem => ?_, ?_,
    fun n scopeAlias hn halias => ?_⟩
  · exact not_given_of_mem_joins hnew hmem hother
  · unfold partnerJoins
    split <;> simp [targetJoin]
  · dsimp only at halias
    rw [hled, ← halias]
    exact brings_partnerJoins hr hsuits hfit hm hn (fun heq => hmiddle (heq ▸ hgiven))
      (fun heq => hfresh (halias ▸ heq ▸ hgiven)) (halias ▸ hne)

/-- A bounded hop is attached by the join of a sub-select. -/
theorem joined_joinLateral (hmany : (s.relation id).cardinality = .many) {limit : Nat}
    (hlimit : r.limit = some limit) (h : (s.hop r m id).joinLateral limit r.ordering d = .ok a) :
    ∃ joins aliases, s.Joined r db id d m a joins aliases := by
  obtain ⟨inner, middle, tables, order, horder, hnew, hmiddle, hne, ha⟩ := joinLateral_eq h
  have hled : s.led r db id = s.collection r db id := by simp only [led, hmany]
  have hinner : inner ∈ d.aliases.takeAll tables := by simp [← hnew]
  have hown : a.tableAlias ∈ d.aliases.takeAll tables := by simp [← hnew]
  have hkeys : order = orderingOn inner (r.sortKeys (s.target id)) := by
    rw [collectionOrder_eq_ok horder, Request.sortKeys, hlimit, Option.isSome_some, Bool.and_true]
  rw [hkeys] at ha
  refine ⟨_, _, congrArg (·.source) ha, ?_, ⟨_, congrArg (·.draft) ha⟩, Nat.le_add_right _ _,
    (AliasSupply.given_of_mem_takeAll hown).1, fun other hother hmem => ?_, ?_,
    fun n scopeAlias hn halias => ?_⟩
  · rw [congrArg (·.strategy) ha]
    simp
  · obtain rfl : other = a.tableAlias := by simpa using hmem
    exact (AliasSupply.given_of_mem_takeAll hown).2 hother
  · simp
  · rw [hled, ← halias]
    exact brings_collectionSelect hr hsuits hfit hm hn hne
      (fun heq => (AliasSupply.given_of_mem_takeAll hinner).2 (heq ▸ hgiven))
      (fun heq => hmiddle (heq ▸ hgiven)) hlimit

/-- Without a self key a hop is attached by joins, or it opens a batch. -/
theorem place_eq_ok (hself : r.selfKey = none) (h : (s.hop r m id).place r d = .ok a) :
    (∃ joins aliases, s.Joined r db id d m a joins aliases) ∨
      ((s.relation id).cardinality = .many ∧ r.limit = none ∧
        (s.hop r m id).loadBatch r.ordering d = .ok a) := by
  rcases Hop.place_cases h with ⟨hone, rfl⟩ | ⟨-, selfKey, hsome, -⟩ | ⟨hmany, limit, hlimit, h⟩ | hbatch
  · exact .inl (joined_joinDirect hr hsuits hfit hm hgiven hone)
  · rw [hself] at hsome
    cases hsome
  · exact .inl (joined_joinLateral hr hsuits hfit hm hgiven hmany hlimit h)
  · exact .inr hbatch

end Schema

end EagerLoad
