import EagerLoad.Proofs.Loading.Attaching
import EagerLoad.Proofs.Plan.Sources

/-!
# The primary statement of a compilation

Whatever has been attached, the scopes of the primary statement stand for the root rows and for the rows
to which these lead along the nodes that are read from it. A node that opens a batch, or is read from one,
changes nothing in the statement.
-/

namespace EagerLoad

open Sql

variable {s : Schema} {r : Request} {db : Database} {root : s.EntityId} {hops : List s.RelationId}
  {d d' : Draft} {id : s.RelationId} {n : Node}

theorem Schema.Loads.unique {e e' : s.EntityId} (h : s.Loads n e) (h' : s.Loads n e') : e = e' :=
  Fin.ext (h.entity.symm.trans h'.entity)

/-- A child in the tree of a draft loads the target of a relation whose source its parent loads. -/
theorem Draft.Rooted.child (hd : d.Rooted s hops) (htree : d.TreeMatches)
    (hloads : ∀ n ∈ d.nodes, ∃ e, s.Loads n e) {t c : LoadTree} (ht : t ∈ d.tree.subtrees)
    (hc : c ∈ t.children) :
    ∃ id : s.RelationId, c.info.relation = some id.val ∧ s.Loads t.info (s.relation id).source ∧
      s.Loads c.info (s.relation id).target := by
  obtain ⟨-, hmem, htmem, hparent⟩ := htree.child ht hc
  obtain ⟨m, hm, hmparent, -, id, hrelation, hsource, htarget, -⟩ := hd.below _ hmem
  obtain rfl : m = t.info :=
    hd.eq_of_id_eq hm htmem (Option.some.inj (hmparent.symm.trans hparent))
  obtain ⟨e, he⟩ := hloads _ htmem
  obtain ⟨e', he'⟩ := hloads _ (List.mem_cons_of_mem _ hmem)
  obtain rfl : e = (s.relation id).source := Fin.ext (he.entity.symm.trans hsource)
  obtain rfl : e' = (s.relation id).target := Fin.ext (he'.entity.symm.trans htarget)
  exact ⟨id, hrelation, he, he'⟩

/-- The scopes of the primary statement of a draft for a root row. -/
def Draft.scopes (db : Database) (d : Draft) (row : Tuple) : List Scope :=
  Join.extendAll db d.root.tableAlias d.primary.joins [(d.root.tableAlias, row)]

/-- What the nodes of a draft load, and what its primary statement selects for them. -/
structure Draft.Selects (s : Schema) (r : Request) (db : Database) (root : s.EntityId) (d : Draft) :
    Prop where
  loads : ∀ n ∈ d.nodes, ∃ e, s.Loads n e
  given : ∀ n ∈ d.nodes, d.aliases.Given n.tableAlias
  statement : d.primary = { source := .table (s.entity root).table d.root.tableAlias
                            projections := d.primary.projections
                            joins := d.primary.joins }
  labels : Projection.ByAlias d.primary.projections
  projected : ∀ n ∈ d.nodes, n.source = .primary →
    labelledColumns n.tableAlias n.columns ⊆ d.primary.projections
  stands : ∀ rows ⊆ db.rows (s.entity root).table, (rows.map (s.entity root).identity).Nodup →
    Stands (s.targetsAt r db) d.tree (rows.flatMap (d.scopes db)) rows
  /-- A scope has the root row, and for every node a row of its entity or none. -/
  shown : ∀ row, ∀ scope ∈ d.scopes db row,
    (∀ column, scope.cell d.root.tableAlias column = row.cell column) ∧
      ∀ n ∈ d.others, n.source = .primary → ∀ e, s.Loads n e →
        n.ShowsOneOf (db.rows (s.entity e).table) scope

/-- A draft has one node more than another: it loads an entity under a new alias. -/
structure Draft.Grows (s : Schema) (d : Draft) (n : Node) (d' : Draft) : Prop where
  root : d'.root = d.root
  others : d'.others = d.others ++ [n]
  tree : d'.tree = d.tree.attach n
  loads : ∃ e, s.Loads n e
  used : d.aliases.used ≤ d'.aliases.used
  given : d'.aliases.Given n.tableAlias

theorem Draft.Grows.mem_nodes (h : Draft.Grows s d n d') {m : Node} :
    m ∈ d'.nodes ↔ m ∈ d.nodes ∨ m = n := by
  simp only [Draft.nodes, h.root, h.others, List.mem_cons, List.mem_append, List.not_mem_nil, or_false,
    or_assoc]

namespace Draft.Selects

/-- The primary statement of a root alone. -/
theorem start (hsuits : s.Suits db) : (s.rootDraft root).Selects s r db root := by
  have hgiven : (s.rootDraft root).aliases.Given (s.rootDraft root).root.tableAlias :=
    AliasSupply.given_take _ _
  have hloads : s.Loads (s.rootDraft root).root root := ⟨rfl, rfl, rfl⟩
  have hscopes (row : Tuple) : (s.rootDraft root).scopes db row =
      [[((s.rootDraft root).root.tableAlias, row)]] := rfl
  constructor
  case loads =>
    intro n hn
    obtain rfl := List.mem_singleton.mp hn
    exact ⟨root, hloads⟩
  case given =>
    intro n hn
    obtain rfl := List.mem_singleton.mp hn
    exact hgiven
  case statement => rfl
  case labels => exact Projection.byAlias_labelledColumns hgiven.dotless _
  case projected =>
    intro n hn _
    obtain rfl := List.mem_singleton.mp hn
    exact List.Subset.refl _
  case stands =>
    intro rows hrows hnodup
    have hkey : ∀ row ∈ rows, (s.rootDraft root).root.scopeKey?
        [((s.rootDraft root).root.tableAlias, row)] = some ((s.rootDraft root).root.rowKey row) :=
      fun row hrow => Node.scopeKey?_of_cell (Scope.cell_cons_self _)
        (hsuits.key _ (List.getElem_mem _) row (hrows hrow))
    have hall : rows.flatMap ((s.rootDraft root).scopes db) =
        rows.map fun row => [((s.rootDraft root).root.tableAlias, row)] :=
      (List.map_eq_flatMap ..).symm
    rw [hall]
    refine .node ?_ (fun row hrow scope hscope => ?_) (by simp)
    · rw [Node.scopeKeys, List.filterMap_map, Function.comp_def, List.filterMap_congr hkey,
        List.filterMap_eq_map', hloads.rowKey_eq, eraseDups_of_nodup hnodup]
    · obtain ⟨hmem, hscopeKey⟩ := Node.mem_scopesOf.mp hscope
      obtain ⟨row', hrow', rfl⟩ := List.mem_map.mp hmem
      rw [hkey row' hrow', hloads.rowKey_eq] at hscopeKey
      obtain rfl := List.inj_on_of_nodup_map hnodup hrow' hrow (Option.some.inj hscopeKey)
      exact fun column _ => Scope.cell_cons_self column
  case shown =>
    intro row scope hscope
    rw [hscopes, List.mem_singleton] at hscope
    subst hscope
    exact ⟨fun column => Scope.cell_cons_self column, by simp [Schema.rootDraft]⟩

theorem loads_grows (h : d.Selects s r db root) (hgrows : Draft.Grows s d n d') :
    ∀ m ∈ d'.nodes, ∃ e, s.Loads m e := by
  intro m hm
  rcases hgrows.mem_nodes.mp hm with hm | rfl
  · exact h.loads m hm
  · exact hgrows.loads

/-- The aliases of the nodes that were there stay given. -/
theorem given_grows (h : d.Selects s r db root) (hgrows : Draft.Grows s d n d') :
    ∀ m ∈ d'.nodes, d'.aliases.Given m.tableAlias := by
  intro m hm
  rcases hgrows.mem_nodes.mp hm with hm | rfl
  · exact (h.given m hm).mono hgrows.used
  · exact hgrows.given

/-- A node that is read from a batch changes nothing in the primary statement. -/
theorem keep (h : d.Selects s r db root) (hgrows : Draft.Grows s d n d')
    (hprimary : d'.primary = d.primary) (hroot : d.root.source = .primary)
    (hsource : n.source ≠ .primary) : d'.Selects s r db root := by
  have hscopes : d'.scopes db = d.scopes db := by
    funext row
    rw [Draft.scopes, Draft.scopes, hgrows.root, hprimary]
  constructor
  case loads => exact h.loads_grows hgrows
  case given => exact h.given_grows hgrows
  case statement =>
    rw [hprimary, hgrows.root]
    exact h.statement
  case labels => exact hprimary ▸ h.labels
  case projected =>
    intro m hm hmsource
    rw [hprimary]
    rcases hgrows.mem_nodes.mp hm with hm | rfl
    · exact h.projected m hm hmsource
    · exact absurd hmsource hsource
  case stands =>
    intro rows hrows hnodup
    have hself : (rows.flatMap (d.scopes db)).flatMap (fun scope => [scope]) =
        rows.flatMap (d.scopes db) := List.flatMap_singleton' _
    rw [hgrows.tree, hscopes, ← hself]
    refine (h.stands rows hrows hnodup).attach (fun scope _ => ⟨List.cons_ne_nil _ _, ?_⟩) fun hn => ?_
    · intro scope' hscope' m _ column
      rw [List.mem_singleton.mp hscope']
    · rw [Draft.info_tree, hroot] at hn
      exact absurd hn hsource
  case shown =>
    intro row scope hscope
    rw [hscopes] at hscope
    obtain ⟨hrow, hshown⟩ := h.shown row scope hscope
    refine ⟨hgrows.root ▸ hrow, fun m hm hmsource => ?_⟩
    rw [hgrows.others, List.mem_append, List.mem_singleton] at hm
    rcases hm with hm | rfl
    · exact hshown m hm hmsource
    · exact absurd hmsource hsource

/-- A node that is attached by joins in the primary statement. -/
theorem join (h : d.Selects s r db root) (hgrows : Draft.Grows s d n d') (hsuits : s.Suits db)
    (hnodes : d.tree.nodes ⊆ d.nodes) {joins : List Join}
    (hprimary : d'.primary = d.primary.bringIn joins n.tableAlias n.columns)
    (hfresh : ∀ other, d.aliases.Given other → other ∉ joins.map (·.tableAlias))
    (hleft : ∀ join ∈ joins, join.kind = .left) (hn : s.Loads n (s.relation id).target)
    (hrelation : n.relation = some id.val)
    (hbrings : ∀ m ∈ d.nodes, n.parent = some m.id → Brings db d.root.tableAlias joins m n
      (db.rows (s.target id).table) (s.led r db id))
    (hparent : ∃ m ∈ d.nodes, n.parent = some m.id) : d'.Selects s r db root := by
  have hscopes (row : Tuple) : d'.scopes db row =
      (d.scopes db row).flatMap (Join.extendAll db d.root.tableAlias joins) := by
    rw [Draft.scopes, Draft.scopes, hgrows.root, hprimary, ← Join.extendAll_append]
    rfl
  have hcell {m : Node} (hm : m ∈ d.nodes) {scope scope' : Scope}
      (hscope' : scope' ∈ Join.extendAll db d.root.tableAlias joins scope) (column : String) :
      scope'.cell m.tableAlias column = scope.cell m.tableAlias column :=
    Join.cell_of_mem_extendAll (hfresh _ (h.given m hm)) hscope' column
  constructor
  case loads => exact h.loads_grows hgrows
  case given => exact h.given_grows hgrows
  case statement =>
    rw [hprimary, hgrows.root, h.statement]
    rfl
  case labels =>
    rw [hprimary]
    exact h.labels.append (Projection.byAlias_labelledColumns hgrows.given.dotless _)
  case projected =>
    intro m hm hmsource
    rw [hprimary]
    rcases hgrows.mem_nodes.mp hm with hm | rfl
    · exact List.subset_append_of_subset_left _ (h.projected m hm hmsource)
    · exact List.subset_append_right _ _
  case stands =>
    intro rows hrows hnodup
    have hall : rows.flatMap (d'.scopes db) =
        (rows.flatMap (d.scopes db)).flatMap (Join.extendAll db d.root.tableAlias joins) := by
      rw [List.flatMap_assoc]
      exact List.flatMap_congr fun row _ => hscopes row
    rw [hgrows.tree, hall]
    refine (h.stands rows hrows hnodup).attach (fun scope _ => ⟨Join.extendAll_ne_nil hleft scope, ?_⟩) ?_
    · exact fun scope' hscope' m hm column => hcell (hnodes hm) hscope' column
    · intro _ m hm hparent row part hne hpart
      refine (hbrings m (hnodes hm) hparent).stands hsuits hn (Schema.led_subset row) ?_ hne hpart
      rw [Schema.targetsAt_of_relation hrelation, Schema.targets_eq_once]
      rfl
  case shown =>
    intro row scope' hscope'
    rw [hscopes] at hscope'
    obtain ⟨scope, hscope, hscope'⟩ := List.mem_flatMap.mp hscope'
    obtain ⟨hrow, hshown⟩ := h.shown row scope hscope
    refine ⟨fun column => ?_, fun m hm hmsource e he => ?_⟩
    · rw [hgrows.root, hcell List.mem_cons_self hscope', hrow]
    · rw [hgrows.others, List.mem_append, List.mem_singleton] at hm
      rcases hm with hm | rfl
      · have hkept := hcell (List.mem_cons_of_mem _ hm) hscope'
        rcases hshown m hm hmsource e he with hnone | ⟨target, htarget, hshows⟩
        · exact .inl (by rw [Node.scopeKey?_congr hkept, hnone])
        · exact .inr ⟨target, htarget, fun column hcolumn => by rw [hkept, hshows column hcolumn]⟩
      · obtain rfl := he.unique hn
        obtain ⟨q, hq, hparent⟩ := hparent
        exact (hbrings q hq hparent).shown scope scope' hscope'

end Draft.Selects

end EagerLoad
