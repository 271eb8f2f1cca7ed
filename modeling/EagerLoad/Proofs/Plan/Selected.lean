import EagerLoad.Proofs.Loading.Attaching
import EagerLoad.Proofs.Plan.Sources

/-!
# What the statements of a plan select

A node is attached by joins in the statement of its parent, which then selects the node's columns, or it
opens a batch whose statement selects its link and its columns. So whatever a request asks for, every
statement of its plan selects the columns of all nodes that are read from it, each from the alias of its
node and under the label by which hydration looks it up.
-/

namespace EagerLoad

open Sql

variable {s : Schema} {r : Request} {root : s.EntityId} {hops : List s.RelationId} {d d' : Draft}
  {id : s.RelationId} {m n : Node} {notes : Notes} {a : Attachment} {i : Nat} {b : Batch}
  {q q' : Select} {source : RowSource} {tableAlias : String} {change : Select → Select} {db : Database}
  {scope scope' : Scope} {columns : List String} {rows rows' : List Tuple}

/-- A batch selects its link first, each column under a label of its own, and then columns of aliases. -/
structure Batch.SelectsLink (b : Batch) (tableAlias : String) : Prop where
  dotless : '.' ∉ tableAlias.toList
  linkLabels : b.linkLabels = (List.range b.link.length).map fun i => columnLabel tableAlias (linkName i)
  projections : ∃ columns, Projection.ByAlias columns ∧
    b.statement.projections = Projection.ofLink tableAlias b.link ++ columns
  /-- Each column of the link is compared with one of the parent. -/
  length_eq : b.parentColumns.length = b.link.length
  unlimited : b.statement.limit = none ∧ b.statement.offset = none

/-- An outer join of a table. -/
def Sql.Join.Outer (join : Join) : Prop :=
  join.kind = .left ∧ ∃ table, join.target = .table table

/-- A scope has for an alias the columns of one of some rows, or nulls. -/
def Scope.Draws (scope : Scope) (tableAlias : String) (columns : List String) (rows : List Tuple) : Prop :=
  (∀ column, scope.cell tableAlias column = .null) ∨
    ∃ row ∈ rows, ∀ column ∈ columns, scope.cell tableAlias column = row.cell column

/-- What a row of a table gives a scope. -/
theorem Scope.draws_cons {row : Tuple} (h : row ∈ rows) :
    Scope.Draws ((tableAlias, row) :: scope) tableAlias columns rows :=
  .inr ⟨row, h, fun _ _ => Scope.cell_cons_self _⟩

/-- What a left join brings in is drawn from its rows. -/
theorem Scope.draws_padded {names : List String} {row : Tuple} (h : row ∈ padded (.nulls names) rows)
    (hrows : ∀ row ∈ rows, ∃ origin ∈ rows', ∀ column ∈ columns, row.cell column = origin.cell column) :
    Scope.Draws ((tableAlias, row) :: scope) tableAlias columns rows' := by
  rcases mem_padded h with rfl | h
  · exact .inl fun column => by rw [Scope.cell_cons_self, Tuple.cell_nulls]
  · obtain ⟨origin, horigin, hcells⟩ := hrows row h
    exact .inr ⟨origin, horigin, fun column hcolumn => by rw [Scope.cell_cons_self, hcells column hcolumn]⟩

namespace Schema

/-- The joins of a to-one hop draw the target from its table. -/
theorem draws_partnerJoins {middle scopeAlias : String}
    (h : scope' ∈ Join.extendAll db scopeAlias (s.partnerJoins r id m middle tableAlias) scope) :
    scope'.Draws tableAlias columns (db.rows (s.target id).table) := by
  have htarget {pairs : JoinPairs} {left : String} {scope : Scope}
      (h : scope' ∈ Join.extendAll db scopeAlias [s.targetJoin r id m pairs left tableAlias] scope) :
      scope'.Draws tableAlias columns (db.rows (s.target id).table) := by
    rw [targetJoin, Join.extendAll_singleton, JoinTarget.rowsIn_table, JoinKind.extend_left] at h
    obtain ⟨row, hrow, rfl⟩ := List.mem_map.mp h
    exact Scope.draws_padded hrow fun row hrow => ⟨row, (List.mem_filter.mp hrow).1, fun _ _ => rfl⟩
  unfold partnerJoins at h
  split at h
  · rw [Join.extendAll_cons] at h
    obtain ⟨scope₁, -, h⟩ := List.mem_flatMap.mp h
    exact htarget h
  · exact htarget h

/-- The sub-select of a bounded hop draws the target from its table. -/
theorem draws_collectionSelect {inner middle scopeAlias : String} {limit : Nat} {on : Condition}
    (hne : inner ≠ middle) (h : scope' ∈ Join.extendAll db scopeAlias
      [⟨.left, .lateral (s.collectionSelect r id m inner middle limit), tableAlias, on⟩] scope) :
    scope'.Draws tableAlias (s.target id).columns (db.rows (s.target id).table) := by
  rw [Join.extendAll_singleton, JoinTarget.rowsIn_lateral, JoinKind.extend_left] at h
  obtain ⟨row, hrow, rfl⟩ := List.mem_map.mp h
  exact Scope.draws_padded hrow fun row hrow =>
    exists_of_mem_collectionSelect hne (List.mem_filter.mp hrow).1

/-- A batch has the targets of a relation under one alias and its link under another, or under the same. -/
structure Collects (s : Schema) (id : s.RelationId) (b : Batch) (tableAlias middle : String) : Prop where
  ne : tableAlias ≠ middle
  linked : s.LinkedBy id b (s.linkAlias id tableAlias middle)
  source : b.statement.source = .table (s.target id).table tableAlias
  joins : b.statement.joins = s.linkJoins id tableAlias middle

/-- A hop is attached by joins in the statement of its parent, under new aliases. -/
structure JoinsInto (s : Schema) (r : Request) (id : s.RelationId) (d : Draft) (m : Node)
    (a : Attachment) (joins : List Join) (tables : List String) : Prop where
  source : a.source = m.source
  draft : ∃ notes, a.draft = { d with aliases := d.aliases.after tables, notes }.modify m.source
    (Select.bringIn joins a.tableAlias (s.target id).columns)
  aliases : Join.aliasesAll joins = d.aliases.takeAll tables
  own : a.tableAlias ∈ d.aliases.takeAll tables
  /-- Only the join of the root's own type drops rows. -/
  left : a.strategy ≠ .selfAliased → ∀ join ∈ joins, join.kind = .left
  outer : (a.strategy ≠ .boundedLateral ∧ a.strategy ≠ .selfAliased) ↔ ∀ join ∈ joins, join.Outer
  /-- The columns of the hop are drawn from the table of the target. -/
  draws : ∀ (db : Database) (scopeAlias : String) (scope : Scope),
    ∀ scope' ∈ Join.extendAll db scopeAlias joins scope,
      scope'.Draws a.tableAlias (s.target id).columns (db.rows (s.target id).table)
  /-- A hop that is attached by outer joins of tables leads to one target. -/
  direct : a.strategy ≠ .boundedLateral → a.strategy ≠ .selfAliased → (s.relation id).cardinality = .one ∧
    ∃ middle, ¬d.aliases.Given middle ∧ middle ≠ a.tableAlias ∧
      joins = s.partnerJoins r id m middle a.tableAlias

theorem JoinsInto.tableAlias_mem {joins : List Join} {tables : List String}
    (h : s.JoinsInto r id d m a joins tables) : ∀ join ∈ joins, join.tableAlias ∈ d.aliases.takeAll tables :=
  fun _ hjoin => h.aliases ▸ Join.tableAlias_mem_aliasesAll hjoin

/-- A hop opens a batch, under new aliases. -/
structure OpensOwn (s : Schema) (id : s.RelationId) (d : Draft) (a : Attachment) (batch : Batch)
    (tables : List String) : Prop where
  source : a.source = .batch d.batches.length
  strategy : a.strategy = .batched
  draft : a.draft = { d with aliases := d.aliases.after tables, batches := d.batches ++ [batch] }
  aliases : batch.statement.aliases = d.aliases.takeAll tables
  own : a.tableAlias ∈ d.aliases.takeAll tables
  link : batch.SelectsLink a.tableAlias
  collects : ∃ middle, s.Collects id batch a.tableAlias middle ∧
    s.linkAlias id a.tableAlias middle ∈ d.aliases.takeAll tables
  columns : labelledColumns a.tableAlias (s.target id).columns ⊆ batch.statement.projections

/-- Whatever the request, a hop is attached by joins or opens a batch. -/
theorem joinsInto_or_opensOwn (h : (s.hop r m id).place r d = .ok a) :
    (∃ joins tables, s.JoinsInto r id d m a joins tables) ∨ ∃ batch tables, s.OpensOwn id d a batch tables := by
  rcases Hop.place_cases h with ⟨hone, rfl⟩ | ⟨-, selfKey, -, -, h⟩ | ⟨-, limit, hlimit, h⟩ | ⟨-, -, h⟩
  · obtain ⟨middle, tableAlias, tables, hnew, hown, hmiddle, hne, ha⟩ := s.joinDirect_eq r id m d
    rw [ha]
    have houter : ∀ join ∈ s.partnerJoins r id m middle tableAlias, join.Outer := by
      unfold partnerJoins
      split <;> simp [targetJoin, Join.Outer]
    exact .inl ⟨_, tables, rfl, ⟨_, rfl⟩, hnew, hown,
      fun _ join hjoin => (houter join hjoin).1, iff_of_true (by simp) houter,
      fun _ _ _ _ hscope => draws_partnerJoins hscope, fun _ _ => ⟨hone, middle, hmiddle, hne, rfl⟩⟩
  · obtain ⟨column, -, hnew, ha⟩ := joinSelf_eq h
    have hown : a.tableAlias ∈ d.aliases.takeAll [(s.target id).table] :=
      hnew ▸ List.mem_singleton_self _
    have hstrategy : a.strategy = .selfAliased := congrArg (·.strategy) ha
    refine .inl ⟨_, _, congrArg (·.source) ha, ⟨_, congrArg (·.draft) ha⟩, ?_, hown,
      fun hne => absurd hstrategy hne, iff_of_false (by simp [hstrategy]) (by simp [Join.Outer]),
      fun db scopeAlias scope scope' hscope => ?_, fun _ hne => absurd hstrategy hne⟩
    · rw [← hnew]
      rfl
    · rw [Join.extendAll_singleton, JoinTarget.rowsIn_table, JoinKind.extend_inner] at hscope
      obtain ⟨row, hrow, rfl⟩ := List.mem_map.mp hscope
      exact Scope.draws_cons (List.mem_filter.mp hrow).1
  · obtain ⟨inner, middle, tables, order, horder, hnew, -, hne, ha⟩ := joinLateral_eq h
    have hown : a.tableAlias ∈ d.aliases.takeAll tables := by simp [← hnew]
    have hstrategy : a.strategy = .boundedLateral := congrArg (·.strategy) ha
    have hkeys : order = orderingOn inner (r.sortKeys (s.target id)) := by
      rw [collectionOrder_eq_ok horder, Request.sortKeys, hlimit, Option.isSome_some, Bool.and_true]
    rw [hkeys] at ha
    refine .inl ⟨_, _, congrArg (·.source) ha, ⟨_, congrArg (·.draft) ha⟩, ?_, hown,
      fun _ => by simp, iff_of_false (by simp [hstrategy]) (by simp [Join.Outer]),
      fun _ _ _ _ hscope => draws_collectionSelect hne hscope, fun hne => absurd hstrategy hne⟩
    rw [← hnew]
    simp [Join.aliasesAll, JoinTarget.aliases, Select.aliases, Source.aliases, collectionSelect]
  · obtain ⟨middle, tables, order, -, hnew, hne, ha⟩ := loadBatch_eq h
    have hown : a.tableAlias ∈ d.aliases.takeAll tables := hnew ▸ List.mem_cons_self
    have hdot := (AliasSupply.given_of_mem_takeAll hown).1.dotless
    have hlink : s.linkAlias id a.tableAlias middle ∈ d.aliases.takeAll tables := by
      rw [← hnew]
      unfold linkAlias linkJoins
      split <;> simp [Join.aliasesAll]
    refine .inr ⟨_, tables, congrArg (·.source) ha, congrArg (·.strategy) ha, congrArg (·.draft) ha,
      (hnew ▸ rfl), hown, ⟨hdot, rfl, ⟨_, Projection.byAlias_labelledColumns hdot _, rfl⟩, ?_, rfl, rfl⟩,
      ⟨middle, ⟨hne, ⟨rfl, rfl⟩, rfl, rfl⟩, hlink⟩, List.subset_append_right _ _⟩
    simp [collectionBatch, JoinPairs.left, JoinPairs.right]

end Schema

namespace Draft

/-- A statement selects the columns of the nodes that are read from a source. -/
def ReadBy (d : Draft) (source : RowSource) (q : Select) : Prop :=
  ∀ n ∈ d.nodes, n.source = source → labelledColumns n.tableAlias n.columns ⊆ q.projections

/-- A statement that selects more is one for a further node, too. -/
theorem ReadBy.attach (h : d.ReadBy source q) (hnodes : d'.nodes = d.nodes ++ [n])
    (hsub : q.projections ⊆ q'.projections)
    (hn : n.source = source → labelledColumns n.tableAlias n.columns ⊆ q'.projections) :
    d'.ReadBy source q' := by
  intro m hm hsource
  rw [hnodes, List.mem_append, List.mem_singleton] at hm
  rcases hm with hm | rfl
  · exact List.Subset.trans (h m hm hsource) hsub
  · exact hn hsource

/-- A batch names the node to which it is entrusted, and is the same apart from that. -/
theorem batch_of_entrust (h : (d.entrust n).batches[i]? = some b) :
    ∃ b₀, d.batches[i]? = some b₀ ∧
      b = { b₀ with node := if n.source = .batch i then n.id else b₀.node } := by
  unfold entrust at h
  cases hsource : n.source with
  | primary =>
    rw [hsource] at h
    exact ⟨b, h, by simp⟩
  | batch j =>
    rw [hsource] at h
    simp only [List.getElem?_modify, Option.map_eq_map, Option.map_eq_some_iff] at h
    obtain ⟨b₀, hb₀, rfl⟩ := h
    refine ⟨b₀, hb₀, ?_⟩
    by_cases hji : j = i <;> simp [hji]

/-- What joining a node into the statement of a source makes of a batch. -/
theorem batch_of_join (h : ((d.modify source change).entrust n).batches[i]? = some b) :
    ∃ b₀, d.batches[i]? = some b₀ ∧
      b = { b₀ with
        node := if n.source = .batch i then n.id else b₀.node
        statement := if source = .batch i then change b₀.statement else b₀.statement } := by
  obtain ⟨b₁, hb₁, rfl⟩ := batch_of_entrust h
  cases source with
  | primary => exact ⟨b₁, hb₁, by simp⟩
  | batch j =>
    simp only [modify, List.getElem?_modify, Option.map_eq_map, Option.map_eq_some_iff] at hb₁
    obtain ⟨b₀, hb₀, rfl⟩ := hb₁
    refine ⟨b₀, hb₀, ?_⟩
    by_cases hji : j = i <;> simp [hji]

/-- What opening a batch makes of a batch. -/
theorem batch_of_open {batch : Batch} (hbatches : d'.batches = d.batches ++ [batch])
    (h : (d'.entrust n).batches[i]? = some b) :
    ∃ b₀, b = { b₀ with node := if n.source = .batch i then n.id else b₀.node } ∧
      ((i = d.batches.length ∧ b₀ = batch) ∨ d.batches[i]? = some b₀) := by
  obtain ⟨b₀, hb₀, rfl⟩ := batch_of_entrust h
  refine ⟨b₀, rfl, ?_⟩
  rw [hbatches, List.getElem?_append] at hb₀
  split at hb₀
  · exact .inr hb₀
  · rw [List.getElem?_singleton] at hb₀
    split at hb₀
    · exact .inl ⟨by omega, (Option.some.inj hb₀).symm⟩
    · cases hb₀

/-- What the statements of a draft select for its nodes. -/
structure Projecting (s : Schema) (root : s.EntityId) (d : Draft) : Prop where
  given : ∀ n ∈ d.nodes, d.aliases.Given n.tableAlias
  key : s.Declared → ∀ n ∈ d.nodes, n.primaryKey ∈ n.columns
  /-- Apart from its joins, the primary statement reads the table of the root. -/
  statement : d.primary = { source := .table (s.entity root).table d.root.tableAlias
                            projections := d.primary.projections
                            joins := d.primary.joins }
  /-- The alias of the root is that of no join. -/
  rootAlias : ∀ join ∈ d.primary.joins, join.tableAlias ≠ d.root.tableAlias
  left : (∀ n ∈ d.others, n.strategy ≠ .selfAliased) → ∀ join ∈ d.primary.joins, join.kind = .left
  outer : (∀ n ∈ d.others, Plan.multiplies n = false) ↔ ∀ join ∈ d.primary.joins, join.Outer
  labels : Projection.ByAlias d.primary.projections
  primary : d.ReadBy .primary d.primary
  link : ∀ (i : Nat) (b : Batch), d.batches[i]? = some b → ∃ tableAlias, b.SelectsLink tableAlias
  batch : ∀ (i : Nat) (b : Batch), d.batches[i]? = some b → d.ReadBy (.batch i) b.statement

namespace Projecting

/-- The draft that loads the root alone. -/
theorem start (s : Schema) (root : s.EntityId) : (s.rootDraft root).Projecting s root := by
  have hgiven : (s.rootDraft root).aliases.Given (s.rootDraft root).root.tableAlias :=
    AliasSupply.given_take _ _
  have honly {n : Node} (hn : n ∈ (s.rootDraft root).nodes) : n = (s.rootDraft root).root :=
    List.mem_singleton.mp hn
  constructor
  case given => exact fun n hn => honly hn ▸ hgiven
  case key => exact fun hdeclared n hn => honly hn ▸ (hdeclared _ (List.getElem_mem _)).primaryKey_mem
  case statement => rfl
  case rootAlias => exact fun join hjoin => absurd hjoin List.not_mem_nil
  case left => exact fun _ join hjoin => absurd hjoin List.not_mem_nil
  case outer => exact iff_of_true (by simp [Schema.rootDraft]) (by simp [Schema.rootDraft])
  case labels => exact Projection.byAlias_labelledColumns hgiven.dotless _
  case primary => exact fun n hn _ => honly hn ▸ List.Subset.refl _
  case link => simp [Schema.rootDraft]
  case batch => simp [Schema.rootDraft]

end Projecting

end Draft

/-- What a batch selects stays first when more columns are brought into its statement. -/
theorem Batch.SelectsLink.bringIn {linkAlias : String} (h : b.SelectsLink linkAlias)
    (hdot : '.' ∉ tableAlias.toList) (joins : List Join) (columns : List String) (node : Nat) :
    Batch.SelectsLink { b with node, statement := b.statement.bringIn joins tableAlias columns }
      linkAlias := by
  obtain ⟨more, hmore, hprojections⟩ := h.projections
  refine ⟨h.dotless, h.linkLabels, ⟨more ++ labelledColumns tableAlias columns, ?_, ?_⟩, h.length_eq,
    h.unlimited⟩
  · exact hmore.append (Projection.byAlias_labelledColumns hdot columns)
  · rw [Select.bringIn, hprojections, List.append_assoc]

namespace Draft.Projecting

section Attaching

variable (h : d.Projecting s root) (hn : n = (s.hop r m id).node d a)
  (hd' : d' = { a.draft with others := d.others ++ [n], notes }.entrust n) (hroot : d'.root = d.root)

include h hn hd' hroot

/-- The nodes of a draft to which one is attached have aliases that are given out, and if entities are
declared with their keys, then these are among the columns of their nodes. -/
private theorem nodes_attach {tables : List String} (haliases : a.draft.aliases = d.aliases.after tables)
    (hown : a.tableAlias ∈ d.aliases.takeAll tables) :
    d'.nodes = d.nodes ++ [n] ∧ ∀ k ∈ d'.nodes, d'.aliases.Given k.tableAlias ∧
      (s.Declared → k.primaryKey ∈ k.columns) := by
  have hothers : d'.others = d.others ++ [n] := by rw [hd', Draft.others_entrust]
  have hnodes : d'.nodes = d.nodes ++ [n] := by simp [Draft.nodes, hroot, hothers]
  have hsupply : d'.aliases = d.aliases.after tables := by rw [hd', Draft.aliases_entrust, ← haliases]
  refine ⟨hnodes, fun k hk => ?_⟩
  rw [hnodes, List.mem_append, List.mem_singleton] at hk
  rw [hsupply]
  rcases hk with hk | rfl
  · exact ⟨(h.given k hk).after tables, fun hdeclared => h.key hdeclared k hk⟩
  · exact hn ▸ ⟨(AliasSupply.given_of_mem_takeAll hown).1,
      fun hdeclared => (hdeclared _ (List.getElem_mem _)).primaryKey_mem⟩

/-- Joining a node into the statement of its parent. -/
theorem join {joins : List Join} {tables : List String} (hj : s.JoinsInto r id d m a joins tables) :
    d'.Projecting s root := by
  have hothers : d'.others = d.others ++ [n] := by rw [hd', Draft.others_entrust]
  have hsource : n.source = m.source := hn ▸ hj.source
  have hnew : d' = ({ d with aliases := d.aliases.after tables, others := d.others ++ [n], notes }.modify
      m.source (Select.bringIn joins a.tableAlias (s.target id).columns)).entrust n := by
    obtain ⟨_, hdraft⟩ := hj.draft
    rw [hd', hdraft]
    cases m.source <;> rfl
  have hcolumns : labelledColumns n.tableAlias n.columns =
      labelledColumns a.tableAlias (s.target id).columns := hn ▸ rfl
  have hdot := (AliasSupply.given_of_mem_takeAll hj.own).1.dotless
  have haliases : a.draft.aliases = d.aliases.after tables := by
    obtain ⟨_, hdraft⟩ := hj.draft
    rw [hdraft, Draft.aliases_modify]
  obtain ⟨hnodes, hnode⟩ := nodes_attach h hn hd' hroot haliases hj.own
  have hprimary : d'.primary = if m.source = .primary then
      d.primary.bringIn joins a.tableAlias (s.target id).columns else d.primary := by
    rw [hnew, Draft.primary_entrust]
    cases m.source <;> simp [Draft.modify]
  have hsub : d.primary.projections ⊆ d'.primary.projections := by
    rw [hprimary]
    split
    · exact List.subset_append_left _ _
    · exact List.Subset.refl _
  constructor
  case given => exact fun k hk => (hnode k hk).1
  case key => exact fun hdeclared k hk => (hnode k hk).2 hdeclared
  case statement =>
    rw [hprimary, hroot]
    split
    · rw [h.statement]
      rfl
    · exact h.statement
  case rootAlias =>
    intro join hjoin
    rw [hprimary] at hjoin
    rw [hroot]
    split at hjoin
    · rcases List.mem_append.mp hjoin with hjoin | hjoin
      · exact h.rootAlias join hjoin
      · intro heq
        have hfresh := (AliasSupply.given_of_mem_takeAll (hj.tableAlias_mem join hjoin)).2
        exact hfresh (heq ▸ h.given _ List.mem_cons_self)
    · exact h.rootAlias join hjoin
  case left =>
    intro hself join hjoin
    rw [hothers] at hself
    have hold := h.left fun k hk => hself k (List.mem_append_left _ hk)
    have hstrategy : a.strategy ≠ .selfAliased := by
      have := hself n (List.mem_append_right _ (List.mem_singleton_self n))
      rwa [hn] at this
    rw [hprimary] at hjoin
    split at hjoin
    · rcases List.mem_append.mp hjoin with hjoin | hjoin
      · exact hold join hjoin
      · exact hj.left hstrategy join hjoin
    · exact hold join hjoin
  case outer =>
    have hstrategy : n.strategy = a.strategy := hn ▸ rfl
    rw [hothers, List.forall_mem_append, List.forall_mem_singleton, h.outer, hprimary, Plan.multiplies,
      hsource, hstrategy]
    by_cases hjoined : m.source = .primary
    · rw [if_pos hjoined, Select.bringIn, List.forall_mem_append, ← hj.outer]
      simp [hjoined]
    · rw [if_neg hjoined]
      simp [hjoined]
  case labels =>
    rw [hprimary]
    split
    · exact h.labels.append (Projection.byAlias_labelledColumns hdot _)
    · exact h.labels
  case primary =>
    refine h.primary.attach hnodes hsub fun hprimarySource => ?_
    rw [hprimary, if_pos (hsource.symm.trans hprimarySource), hcolumns]
    exact List.subset_append_right _ _
  case link =>
    intro i b hb
    rw [hnew] at hb
    obtain ⟨b₀, hb₀, rfl⟩ := batch_of_join hb
    obtain ⟨linkAlias, hlink⟩ := h.link i b₀ hb₀
    refine ⟨linkAlias, ?_⟩
    by_cases hjoined : m.source = .batch i
    · simp only [if_pos hjoined]
      exact hlink.bringIn hdot joins _ _
    · simp only [if_neg hjoined]
      exact ⟨hlink.dotless, hlink.linkLabels, hlink.projections, hlink.length_eq, hlink.unlimited⟩
  case batch =>
    intro i b hb
    rw [hnew] at hb
    obtain ⟨b₀, hb₀, rfl⟩ := batch_of_join hb
    refine (h.batch i b₀ hb₀).attach hnodes ?_ fun hbatch => ?_
    · dsimp only
      split
      · exact List.subset_append_left _ _
      · exact List.Subset.refl _
    · dsimp only
      rw [if_pos (hsource.symm.trans hbatch), hcolumns]
      exact List.subset_append_right _ _

/-- Opening a batch. -/
theorem openOwn {batch : Batch} {tables : List String} (hs : d.Sourced)
    (ho : s.OpensOwn id d a batch tables) : d'.Projecting s root := by
  have hothers : d'.others = d.others ++ [n] := by rw [hd', Draft.others_entrust]
  have hsource : n.source = .batch d.batches.length := hn ▸ ho.source
  have hprimary : d'.primary = d.primary := by rw [hd', Draft.primary_entrust, ho.draft]
  have hcolumns : labelledColumns n.tableAlias n.columns =
      labelledColumns a.tableAlias (s.target id).columns := hn ▸ rfl
  have haliases : a.draft.aliases = d.aliases.after tables := by rw [ho.draft]
  obtain ⟨hnodes, hnode⟩ := nodes_attach h hn hd' hroot haliases ho.own
  have hbatches : ({ a.draft with others := d.others ++ [n], notes } : Draft).batches = d.batches ++ [batch] := by
    rw [ho.draft]
  constructor
  case given => exact fun k hk => (hnode k hk).1
  case key => exact fun hdeclared k hk => (hnode k hk).2 hdeclared
  case statement =>
    rw [hprimary, hroot]
    exact h.statement
  case rootAlias =>
    rw [hprimary, hroot]
    exact h.rootAlias
  case left =>
    intro hself
    rw [hprimary]
    exact h.left fun k hk => hself k (hothers ▸ List.mem_append_left _ hk)
  case outer =>
    rw [hothers, List.forall_mem_append, List.forall_mem_singleton, h.outer, hprimary, Plan.multiplies,
      hsource]
    simp
  case labels => exact hprimary ▸ h.labels
  case primary =>
    rw [hprimary]
    exact h.primary.attach hnodes (List.Subset.refl _) fun hprimarySource => by simp [hsource] at hprimarySource
  case link =>
    intro i b hb
    rw [hd'] at hb
    obtain ⟨b₀, rfl, ⟨-, rfl⟩ | hb₀⟩ := batch_of_open hbatches hb
    · exact ⟨a.tableAlias, ho.link.dotless, ho.link.linkLabels, ho.link.projections, ho.link.length_eq,
        ho.link.unlimited⟩
    · obtain ⟨linkAlias, hlink⟩ := h.link i b₀ hb₀
      exact ⟨linkAlias, hlink.dotless, hlink.linkLabels, hlink.projections, hlink.length_eq,
        hlink.unlimited⟩
  case batch =>
    intro i b hb
    rw [hd'] at hb
    obtain ⟨b₀, rfl, ⟨rfl, rfl⟩ | hb₀⟩ := batch_of_open hbatches hb
    · -- Nothing else is read from the new batch.
      intro k hk hksource
      rw [hnodes, List.mem_append, List.mem_singleton] at hk
      rcases hk with hk | rfl
      · exact absurd (hs.lt_of_source hk hksource) (lt_irrefl _)
      · exact hcolumns ▸ ho.columns
    · refine (h.batch i b₀ hb₀).attach hnodes (List.Subset.refl _) fun hbatch => ?_
      rw [hsource, RowSource.batch.injEq] at hbatch
      have hlt : i < d.batches.length := (List.getElem?_eq_some_iff.mp hb₀).1
      omega

end Attaching

end Draft.Projecting

/-- In every draft that a compilation passes through, the statements select the columns of their nodes. -/
theorem Schema.Compiling.projecting (h : s.Compiling r root hops d) : d.Projecting s root := by
  induction h with
  | start => exact .start s root
  | reuse _ _ ih => exact ih
  | attach h _ _ _ ha ih =>
    obtain ⟨a, hplace, hn, hd'⟩ := Hop.attach_eq_ok ha
    obtain ⟨hroot, -⟩ := Hop.nodes_of_attach ha
    rcases Schema.joinsInto_or_opensOwn hplace with ⟨joins, tables, hj⟩ | ⟨batch, tables, ho⟩
    · exact ih.join hn hd' hroot hj
    · exact ih.openOwn hn hd' hroot h.sourced ho

end EagerLoad
