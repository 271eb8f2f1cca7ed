import EagerLoad.Proofs.Plan.Scoping
import EagerLoad.Proofs.Plan.Selected

/-!
# Where the nodes of a plan stand

Under the alias of a node below the root there is one join, in the statement that the node is read from, or
one batch that reads its target from there. Which of them, and how it is joined, is told by the node's
strategy.
-/

namespace EagerLoad

open Sql

variable {s : Schema} {r : Request} {root : s.EntityId} {hops : List s.RelationId} {d d' : Draft}
  {id : s.RelationId} {m n : Node} {a : Attachment} {p : Plan} {q q' : Select}

/-- The alias of the source of a statement, and those of its joins. -/
def Sql.Select.places (q : Select) : List String :=
  q.tableAlias :: q.joins.map (·.tableAlias)

/-- The aliases of the sources and the joins of a plan's statements. -/
def Plan.places (p : Plan) : List String :=
  p.primary.places ++ p.batches.flatMap (·.statement.places)

/-- What stands under the alias of a node in a statement: a join of the node's strategy, or the source of a
batch. -/
inductive Node.StandsIn (n : Node) (q : Select) : Prop
  | joined (table : String) (on : Condition) (strategy : n.strategy = .joined)
      (join : ⟨.left, .table table, n.tableAlias, on⟩ ∈ q.joins)
  | selfAliased (table : String) (on : Condition) (strategy : n.strategy = .selfAliased)
      (join : ⟨.inner, .table table, n.tableAlias, on⟩ ∈ q.joins)
  | boundedLateral (sub : Select) (strategy : n.strategy = .boundedLateral)
      (join : ⟨.left, .lateral sub, n.tableAlias, .literal true⟩ ∈ q.joins)
  | batched (index : Nat) (table : String) (strategy : n.strategy = .batched)
      (opened : n.source = .batch index) (source : q.source = .table table n.tableAlias)

/-- Every node below the root has one place in a plan. -/
structure Plan.PlacesOnce (p : Plan) : Prop where
  /-- No alias is given to two joins or sources. -/
  once : p.places.Nodup
  /-- No two nodes share an alias. -/
  apart : (p.others.map (·.tableAlias)).Nodup
  stands : ∀ n ∈ p.others, ∃ q link, p.statement? n.source = some (q, link) ∧ n.StandsIn q

/-- A node keeps its place where joins are added. -/
theorem Node.StandsIn.mono (h : n.StandsIn q) (hsource : q'.source = q.source) (hjoins : q.joins ⊆ q'.joins) :
    n.StandsIn q' := by
  cases h with
  | joined table on strategy join => exact .joined table on strategy (hjoins join)
  | selfAliased table on strategy join => exact .selfAliased table on strategy (hjoins join)
  | boundedLateral sub strategy join => exact .boundedLateral sub strategy (hjoins join)
  | batched index table strategy opened source =>
    exact .batched index table strategy opened (hsource.trans source)

theorem Sql.Select.places_sublist (q : Select) : q.places.Sublist q.aliases := by
  have hjoins : ∀ joins : List Join, (joins.map (·.tableAlias)).Sublist (Join.aliasesAll joins) := by
    intro joins
    induction joins with
    | nil => exact .slnil
    | cons join rest ih =>
      obtain ⟨kind, target, tableAlias, on⟩ := join
      exact List.sublist_append_of_sublist_right (ih.cons_cons tableAlias)
  obtain ⟨source, projections, joins, conditions, ordering, limit, offset⟩ := q
  have hsource : [source.tableAlias].Sublist source.aliases := by
    cases source <;> simp [Source.aliases, Source.tableAlias]
  exact hsource.append (hjoins joins)

/-- The places of a plan are among the aliases that its statements introduce. -/
theorem Plan.places_sublist (p : Plan) : p.places.Sublist p.aliases := by
  have hbatches : ∀ batches : List Batch,
      (batches.flatMap (·.statement.places)).Sublist (batches.flatMap (·.statement.aliases)) := by
    intro batches
    induction batches with
    | nil => exact .slnil
    | cons b rest ih => exact b.statement.places_sublist.append ih
  exact p.primary.places_sublist.append (hbatches p.batches)

namespace Schema

/-- A hop is attached by joins that have the place of its node, or opens a batch that has it. -/
theorem standsIn_of_place (h : (s.hop r m id).place r d = .ok a) :
    (∃ joins tables notes, a.source = m.source ∧
      a.draft = { d with aliases := d.aliases.after tables, notes }.modify m.source
        (Select.bringIn joins a.tableAlias (s.target id).columns) ∧
      a.tableAlias ∈ d.aliases.takeAll tables ∧
      ∀ q : Select, joins ⊆ q.joins → ((s.hop r m id).node d a).StandsIn q) ∨
    ∃ batch tables, a.source = .batch d.batches.length ∧
      a.draft = { d with aliases := d.aliases.after tables, batches := d.batches ++ [batch] } ∧
      a.tableAlias ∈ d.aliases.takeAll tables ∧ ((s.hop r m id).node d a).StandsIn batch.statement := by
  rcases Hop.place_cases h with ⟨-, rfl⟩ | ⟨-, selfKey, -, -, h⟩ | ⟨-, limit, -, h⟩ | ⟨-, -, h⟩
  · obtain ⟨middle, tableAlias, tables, -, hown, -, -, ha⟩ := s.joinDirect_eq r id m d
    rw [ha]
    refine .inl ⟨_, tables, _, rfl, rfl, hown, fun q hjoins => ?_⟩
    have htarget : ∃ pairs left, s.targetJoin r id m pairs left tableAlias ∈
        s.partnerJoins r id m middle tableAlias := by
      unfold partnerJoins
      split
      · exact ⟨_, _, List.mem_cons_of_mem _ (List.mem_singleton_self _)⟩
      · exact ⟨_, _, List.mem_singleton_self _⟩
    obtain ⟨pairs, left, htarget⟩ := htarget
    exact .joined _ _ rfl (hjoins htarget)
  · obtain ⟨column, -, hnew, ha⟩ := joinSelf_eq h
    refine .inl ⟨_, _, _, congrArg (·.source) ha, congrArg (·.draft) ha, hnew ▸ List.mem_singleton_self _,
      fun q hjoins => ?_⟩
    exact .selfAliased _ _ (congrArg (·.strategy) ha) (hjoins (List.mem_singleton_self _))
  · obtain ⟨inner, middle, tables, order, -, hnew, -, -, ha⟩ := joinLateral_eq h
    refine .inl ⟨_, tables, _, congrArg (·.source) ha, congrArg (·.draft) ha, by simp [← hnew],
      fun q hjoins => ?_⟩
    exact .boundedLateral _ (congrArg (·.strategy) ha) (hjoins (List.mem_singleton_self _))
  · obtain ⟨middle, tables, order, -, hnew, -, ha⟩ := loadBatch_eq h
    refine .inr ⟨_, tables, congrArg (·.source) ha, congrArg (·.draft) ha, hnew ▸ List.mem_cons_self, ?_⟩
    exact .batched d.batches.length _ (congrArg (·.strategy) ha) (congrArg (·.source) ha) rfl

/-- The alias of a node that is attached was not given out before. -/
theorem not_given_of_place (h : (s.hop r m id).place r d = .ok a) : ¬d.aliases.Given a.tableAlias := by
  rcases s.standsIn_of_place h with ⟨_, _, _, -, -, hown, -⟩ | ⟨_, _, -, -, hown, -⟩ <;>
    exact (AliasSupply.given_of_mem_takeAll hown).2

end Schema

namespace Draft

/-- Every node that is attached has a place. -/
def Standing (s : Schema) (root : s.EntityId) (d : Draft) : Prop :=
  ∀ n ∈ d.others, ∃ q link, (d.plan s root).statement? n.source = some (q, link) ∧ n.StandsIn q

/-- Attaching a hop keeps the places and adds that of its node. -/
theorem Standing.attach (h : d.Standing s root) (hs : d.Sourced) (hmem : m ∈ d.nodes)
    (ha : (s.hop r m id).attach r d = .ok (n, d')) : d'.Standing s root := by
  obtain ⟨a, hplace, rfl, hd'⟩ := Hop.attach_eq_ok ha
  obtain ⟨-, hothers⟩ := Hop.nodes_of_attach ha
  intro k hk
  rw [hothers, List.mem_append, List.mem_singleton] at hk
  rcases s.standsIn_of_place hplace with ⟨joins, tables, notes, hsource, hdraft, -, hstands⟩ |
    ⟨batch, tables, hsource, hdraft, -, hstands⟩
  · have hmodified : d' = ({ d with
        aliases := d.aliases.after tables
        others := d.others ++ [(s.hop r m id).node d a]
        notes := notes.visit ((s.hop r m id).node d a) }.modify m.source
          (Select.bringIn joins a.tableAlias (s.target id).columns)).entrust ((s.hop r m id).node d a) := by
      rw [hd', hdraft]
      cases m.source <;> rfl
    have hstatement (source : RowSource) : (d'.plan s root).statement? source =
        ((d.plan s root).statement? source).map fun read =>
          (if m.source = source then read.1.bringIn joins a.tableAlias (s.target id).columns else read.1,
            read.2) := by
      rw [hmodified, statement?_entrust, statement?_modify]
      cases source <;> rfl
    rcases hk with hk | rfl
    · obtain ⟨q, link, hread, hplaced⟩ := h k hk
      refine ⟨_, link, by rw [hstatement, hread]; rfl, ?_⟩
      by_cases hm : m.source = k.source
      · rw [if_pos hm]
        exact hplaced.mono rfl (List.subset_append_left _ _)
      · rwa [if_neg hm]
    · have hsome : ((d.plan s root).statement? m.source).isSome := hs.isSome_statement? hmem
      obtain ⟨⟨q, link⟩, hread⟩ := Option.isSome_iff_exists.mp hsome
      have hnode : ((s.hop r m id).node d a).source = m.source := hsource
      refine ⟨_, link, by rw [hstatement, hnode, hread]; rfl, ?_⟩
      rw [if_pos rfl]
      exact hstands _ (List.subset_append_right _ _)
  · -- a batch that is opened leaves the statements before it as they are
    rw [hd']
    simp only [statement?_entrust, hdraft]
    rcases hk with hk | rfl
    · obtain ⟨q, link, hread, hplaced⟩ := h k hk
      refine ⟨q, link, ?_, hplaced⟩
      cases hk : k.source with
      | primary => rwa [hk] at hread
      | batch i =>
        rw [hk] at hread
        obtain ⟨b, hb, hread⟩ := Option.map_eq_some_iff.mp hread
        obtain ⟨hi, -⟩ := List.getElem?_eq_some_iff.mp hb
        refine Option.map_eq_some_iff.mpr ⟨b, ?_, hread⟩
        exact (List.getElem?_append_left hi).trans hb
    · have hnode : ((s.hop r m id).node d a).source = .batch d.batches.length := hsource
      refine ⟨batch.statement, batch.link, ?_, hstands⟩
      rw [hnode]
      simp [plan, Plan.statement?]

end Draft

/-- Every node has a place in every draft that a compilation passes through. -/
theorem Schema.Compiling.standing (h : s.Compiling r root hops d) : d.Standing s root := by
  induction h with
  | start => simp [Draft.Standing, Schema.rootDraft]
  | reuse _ _ ih => exact ih
  | attach h hmem _ _ ha ih => exact ih.attach h.sourced hmem ha

/-- No two nodes of a draft share an alias. -/
theorem Schema.Compiling.apart (h : s.Compiling r root hops d) : (d.others.map (·.tableAlias)).Nodup := by
  induction h with
  | start => exact .nil
  | reuse _ _ ih => exact ih
  | @attach hops d d' id m n h hmem _ _ ha ih =>
    obtain ⟨a, hplace, rfl, -⟩ := Hop.attach_eq_ok ha
    obtain ⟨-, hothers⟩ := Hop.nodes_of_attach ha
    rw [hothers, List.map_append, List.nodup_append']
    refine ⟨ih, List.nodup_singleton _, fun tableAlias hold hnew => ?_⟩
    obtain ⟨k, hk, rfl⟩ := List.mem_map.mp hold
    have halias : k.tableAlias = a.tableAlias := List.mem_singleton.mp hnew
    exact s.not_given_of_place hplace (halias ▸ h.projecting.given k (List.mem_cons_of_mem _ hk))

/-- Every node has one place. -/
theorem Schema.Compiling.placesOnce (h : s.Compiling r root hops d) : (d.plan s root).PlacesOnce where
  once := h.introduces.distinct.sublist (Plan.places_sublist _)
  apart := h.apart
  stands := h.standing

end EagerLoad
