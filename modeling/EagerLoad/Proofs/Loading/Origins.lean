import EagerLoad.Proofs.Loading.Pages
import EagerLoad.Proofs.Plan.Scoping

/-!
# Where the columns of rows come from

Whatever is joined into a statement, the scopes that it goes through have for the alias of each node the
columns of a row of the node's table, or nulls, and for the link of a batch the columns of a row of the
table on which the join stands. This holds for every request, as aliases are never used twice.
-/

namespace EagerLoad

open Sql

variable {s : Schema} {r : Request} {db : Database} {root : s.EntityId} {hops : List s.RelationId}
  {d d' : Draft} {id : s.RelationId} {m n : Node} {notes : Notes} {a : Attachment} {i : Nat} {b : Batch}
  {q : Select} {source : RowSource} {scope scope' : Scope} {tableAlias : String}

theorem Scope.Draws.congr {columns : List String} {rows : List Tuple}
    (h : scope.Draws tableAlias columns rows)
    (hcell : ∀ column, scope'.cell tableAlias column = scope.cell tableAlias column) :
    scope'.Draws tableAlias columns rows := by
  rcases h with hnull | ⟨row, hrow, hcells⟩
  · exact .inl fun column => by rw [hcell, hnull]
  · exact .inr ⟨row, hrow, fun column hcolumn => by rw [hcell, hcells column hcolumn]⟩

/-- What is joined to a statement extends its scopes. -/
theorem Sql.Select.scopes_bringIn (q : Select) (joins : List Join) (tableAlias : String)
    (columns : List String) : (q.bringIn joins tableAlias columns).scopes db =
      (q.scopes db).flatMap (Join.extendAll db q.source.tableAlias joins) := by
  simp only [scopes, bringIn, List.flatMap_assoc, Join.extendAll_append]

namespace Draft

/-- The link of a batch is drawn from the table on which the join of a relation stands. -/
structure LinksTo (s : Schema) (db : Database) (d : Draft) (id : s.RelationId) (b : Batch)
    (linkAlias : String) : Prop where
  given : d.aliases.Given linkAlias
  linked : s.LinkedBy id b linkAlias
  draws : ∀ scope ∈ b.statement.scopes db, ∃ row ∈ db.rows (s.joinedTable id),
    ∀ column, scope.cell linkAlias column = row.cell column

/-- Where the columns of nodes and links come from. -/
structure Drawing (s : Schema) (db : Database) (root : s.EntityId) (d : Draft) : Prop where
  node : ∀ n ∈ d.nodes, ∀ q link, (d.plan s root).statement? n.source = some (q, link) →
    ∀ e, s.Loads n e → ∀ scope ∈ q.scopes db,
      scope.Draws n.tableAlias n.columns (db.rows (s.entity e).table)
  /-- A batch is opened by a node that loads the targets of the batch's relation. -/
  link : ∀ (i : Nat) (b : Batch), d.batches[i]? = some b → ∃ n ∈ d.others, n.strategy = .batched ∧
    n.source = .batch i ∧ ∃ id : s.RelationId, n.relation = some id.val ∧
      ∃ linkAlias, d.LinksTo s db id b linkAlias

namespace Drawing

/-- The root alone is drawn from its table. -/
theorem start (s : Schema) (db : Database) (root : s.EntityId) : (s.rootDraft root).Drawing s db root := by
  have honly {n : Node} (hn : n ∈ (s.rootDraft root).nodes) : n = (s.rootDraft root).root :=
    List.mem_singleton.mp hn
  constructor
  case node =>
    intro n hn q link hq e he scope hscope
    obtain rfl := honly hn
    obtain rfl : root = e := Fin.ext he.entity
    cases hq
    obtain ⟨row, hrow, hscope⟩ := List.mem_flatMap.mp hscope
    obtain rfl := List.mem_singleton.mp hscope
    exact Scope.draws_cons hrow
  case link => simp [Schema.rootDraft]

section Attaching

variable (h : d.Drawing s db root) (hn : n = (s.hop r m id).node d a)
  (hd' : d' = { a.draft with others := d.others ++ [n], notes }.entrust n) (hroot : d'.root = d.root)

include h hn hd' hroot

/-- A node that is joined in is drawn from the table of its target, and changes no other alias. -/
theorem join {joins : List Join} {tables : List String}
    (hgiven : ∀ n ∈ d.nodes, d.aliases.Given n.tableAlias) (hj : s.JoinsInto r id d m a joins tables) :
    d'.Drawing s db root := by
  have hothers : d'.others = d.others ++ [n] := by rw [hd', Draft.others_entrust]
  have hsource : n.source = m.source := hn ▸ hj.source
  have hnew : d' = ({ d with aliases := d.aliases.after tables, others := d.others ++ [n], notes }.modify
      m.source (Select.bringIn joins a.tableAlias (s.target id).columns)).entrust n := by
    obtain ⟨_, hdraft⟩ := hj.draft
    rw [hd', hdraft]
    cases m.source <;> rfl
  have hstatement (source : RowSource) : (d'.plan s root).statement? source =
      ((d.plan s root).statement? source).map fun read =>
        (if m.source = source then read.1.bringIn joins a.tableAlias (s.target id).columns else read.1,
          read.2) := by
    rw [hnew, statement?_entrust, statement?_modify]
    cases source <;> rfl
  have hkept {tableAlias scopeAlias : String} (hother : d.aliases.Given tableAlias) {scope scope' : Scope}
      (hscope' : scope' ∈ Join.extendAll db scopeAlias joins scope) (column : String) :
      scope'.cell tableAlias column = scope.cell tableAlias column := by
    refine Join.cell_of_mem_extendAll (fun hmem => ?_) hscope' column
    obtain ⟨join, hjoin, rfl⟩ := List.mem_map.mp hmem
    exact (AliasSupply.given_of_mem_takeAll (hj.tableAlias_mem join hjoin)).2 hother
  have hnodes : d'.nodes = d.nodes ++ [n] := by simp [Draft.nodes, hroot, hothers]
  constructor
  case node =>
    intro k hk q link hq e he scope' hscope'
    rw [hstatement] at hq
    obtain ⟨⟨q₀, link₀⟩, hq₀, heq⟩ := Option.map_eq_some_iff.mp hq
    obtain rfl := (Prod.mk.inj heq).1
    rw [hnodes, List.mem_append, List.mem_singleton] at hk
    rcases hk with hk | rfl
    · split at hscope'
      · rw [Select.scopes_bringIn] at hscope'
        obtain ⟨scope, hscope, hscope'⟩ := List.mem_flatMap.mp hscope'
        exact (h.node k hk q₀ link₀ hq₀ e he scope hscope).congr (hkept (hgiven k hk) hscope')
      · exact h.node k hk q₀ link₀ hq₀ e he scope' hscope'
    · rw [if_pos hsource.symm, Select.scopes_bringIn] at hscope'
      obtain ⟨scope, -, hscope'⟩ := List.mem_flatMap.mp hscope'
      obtain rfl : (s.relation id).target = e := Fin.ext (by rw [← he.entity, hn]; rfl)
      rw [hn]
      exact hj.draws db _ scope scope' hscope'
  case link =>
    intro i b hb
    rw [hnew] at hb
    obtain ⟨b₀, hb₀, rfl⟩ := batch_of_join hb
    obtain ⟨k, hk, hstrategy, hksource, id', hrelation, linkAlias, hlinks⟩ := h.link i b₀ hb₀
    have haliases : d'.aliases = d.aliases.after tables := by
      rw [hnew, Draft.aliases_entrust, Draft.aliases_modify]
    refine ⟨k, hothers ▸ List.mem_append_left _ hk, hstrategy, hksource, id', hrelation, linkAlias,
      haliases ▸ hlinks.given.after tables, ⟨hlinks.linked.parentColumns, hlinks.linked.link⟩,
      fun scope' hscope' => ?_⟩
    dsimp only at hscope'
    split at hscope'
    · rw [Select.scopes_bringIn] at hscope'
      obtain ⟨scope, hscope, hscope'⟩ := List.mem_flatMap.mp hscope'
      obtain ⟨row, hrow, hcells⟩ := hlinks.draws scope hscope
      exact ⟨row, hrow, fun column => by rw [hkept hlinks.given hscope', hcells]⟩
    · exact hlinks.draws scope' hscope'

/-- A node that opens a batch is drawn from the table of its target, and the link of the batch from the
table on which the join stands. -/
theorem openOwn {batch : Batch} {tables : List String} (hs : d.Sourced) (hrelation : n.relation = some id.val)
    (ho : s.OpensOwn id d a batch tables) : d'.Drawing s db root := by
  obtain ⟨middle, hcollects, hlinkAlias⟩ := ho.collects
  have hothers : d'.others = d.others ++ [n] := by rw [hd', Draft.others_entrust]
  have hnodes : d'.nodes = d.nodes ++ [n] := by simp [Draft.nodes, hroot, hothers]
  have haliases : d'.aliases = d.aliases.after tables := by rw [hd', Draft.aliases_entrust, ho.draft]
  have hsource : n.source = .batch d.batches.length := hn ▸ ho.source
  have hscopes : batch.statement.scopes db =
      (s.ways db id).map (s.wayScope id a.tableAlias middle []) := by
    rw [Select.scopes, hcollects.source, hcollects.joins]
    exact Schema.flatMap_linkJoins hcollects.ne a.tableAlias
  have hbatches : ({ a.draft with others := d.others ++ [n], notes } : Draft).batches = d.batches ++ [batch] := by
    rw [ho.draft]
  constructor
  case node =>
    intro k hk q link hq e he scope hscope
    rw [hd', statement?_entrust] at hq
    rw [hnodes, List.mem_append, List.mem_singleton] at hk
    rcases statement?_of_append hq (by rw [ho.draft]) hbatches with ⟨hlast, heq⟩ | ⟨hother, hq₀⟩
    · rcases hk with hk | rfl
      · exact absurd (hs.lt_of_source hk hlast) (lt_irrefl _)
      · obtain rfl := (Prod.mk.inj heq).1
        rw [hscopes] at hscope
        obtain ⟨way, hway, rfl⟩ := List.mem_map.mp hscope
        obtain rfl : (s.relation id).target = e := Fin.ext (by rw [← he.entity, hn]; rfl)
        rw [hn]
        refine .inr ⟨way.1, (Schema.mem_of_mem_ways hway).1, fun column _ => ?_⟩
        exact Schema.wayScope_inner hcollects.ne column
    · rcases hk with hk | rfl
      · exact h.node k hk q link hq₀ e he scope hscope
      · exact absurd hsource hother
  case link =>
    intro i b hb
    rw [hd'] at hb
    obtain ⟨b₀, rfl, ⟨rfl, rfl⟩ | hb₀⟩ := batch_of_open hbatches hb
    · refine ⟨n, by simp [hothers], hn ▸ ho.strategy, hsource, id, hrelation,
        s.linkAlias id a.tableAlias middle, ?_,
        ⟨hcollects.linked.parentColumns, hcollects.linked.link⟩, ?_⟩
      · exact haliases ▸ (AliasSupply.given_of_mem_takeAll hlinkAlias).1
      · intro scope hscope
        rw [hscopes] at hscope
        obtain ⟨way, hway, rfl⟩ := List.mem_map.mp hscope
        exact ⟨way.2, (Schema.mem_of_mem_ways hway).2, Schema.wayScope_link hway⟩
    · obtain ⟨k, hk, hstrategy, hksource, id', hrelation', linkAlias, hlinks⟩ := h.link i b₀ hb₀
      exact ⟨k, hothers ▸ List.mem_append_left _ hk, hstrategy, hksource, id', hrelation', linkAlias,
        haliases ▸ hlinks.given.after tables, ⟨hlinks.linked.parentColumns, hlinks.linked.link⟩,
        hlinks.draws⟩

end Attaching

end Drawing

end Draft

/-- In every draft that a compilation passes through, columns come from where they should. -/
theorem Schema.Compiling.drawing (h : s.Compiling r root hops d) (db : Database) :
    d.Drawing s db root := by
  induction h with
  | start => exact .start s db root
  | reuse _ _ ih => exact ih
  | attach h _ _ _ ha ih =>
    obtain ⟨a, hplace, hn, hd'⟩ := Hop.attach_eq_ok ha
    obtain ⟨hroot, -⟩ := Hop.nodes_of_attach ha
    rcases Schema.joinsInto_or_opensOwn hplace with ⟨joins, tables, hj⟩ | ⟨batch, tables, ho⟩
    · exact ih.join hn hd' hroot h.projecting.given hj
    · exact ih.openOwn hn hd' hroot h.sourced (hn ▸ rfl) ho

end EagerLoad
