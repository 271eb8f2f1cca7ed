import EagerLoad.Proofs.Loading.Batches
import EagerLoad.Proofs.Loading.Nesting

/-!
# What the batches of a plan deliver

Whatever is put for the batches of a compiled plan, the rows that come back stand for the rows to which the
records lead. The exception is a batched collection into whose statement a node was joined: its batch then
names that node, is never put, and nothing is delivered.
-/

namespace EagerLoad

open Sql

/-- A batched collection that is not delivered, because a node was joined into its statement. -/
def Plan.hides (p : Plan) (n : Node) : Bool :=
  n.strategy = .batched && p.others.any fun m => m.source = n.source && m.strategy ≠ .batched

namespace Schema

variable (s : Schema) (r : Request) (db : Database)

/-- The rows of the entity that a node loads. -/
def rowsAt (n : Node) : List Tuple :=
  if h : n.entity < s.entities.length then db.rows (s.entity ⟨n.entity, h⟩).table else []

/-- No column is named like one of a link. -/
def LinkFree : Prop :=
  ∀ e ∈ s.entities, ∀ column ∈ e.columns, ∀ i, column ≠ linkName i

/-- The rows that are delivered for a row: those to which it leads, unless the plan hides the node. -/
def delivered (p : Plan) (n : Node) (row : Tuple) : List Tuple :=
  if p.hides n then [] else s.targetsAt r db n row

variable {s db}

theorem Loads.rowsAt_eq {n : Node} {e : s.EntityId} (h : s.Loads n e) :
    s.rowsAt db n = db.rows (s.entity e).table := by
  simp [rowsAt, h.entity]

end Schema

/-- A finished draft: what is known of its tree, its sources and its statements. -/
structure Draft.Finished (s : Schema) (r : Request) (db : Database) (root : s.EntityId) (d : Draft) :
    Prop where
  declared : s.Declared
  loadsRoot : s.Loads d.root root
  rooted : ∃ hops, d.Rooted s hops
  tree : d.TreeMatches
  sourced : d.Sourced
  staged : (d.plan s root).Staged
  selects : d.Selects s r db root
  batches : d.Batches s r

variable {s : Schema} {r : Request} {db : Database} {root : s.EntityId} {d : Draft} {t c : LoadTree}
  {n : Node} {i : Nat} {b : Batch} {row : Tuple} {id : s.RelationId}

/-- A node that opened a batch into which another one was joined is hidden. -/
theorem Draft.Taken.hides (h : d.Taken i b) (hsource : n.source = .batch i)
    (hstrategy : n.strategy = .batched) : (d.plan s root).hides n = true := by
  obtain ⟨m, hm, -, hmsource, hmstrategy⟩ := h
  have hany : d.others.any (fun m => m.source = n.source && m.strategy ≠ .batched) = true := by
    refine List.any_eq_true.mpr ⟨m, hm, ?_⟩
    simp [hmsource, hsource, hmstrategy]
  simp only [Plan.hides, hstrategy, decide_true, Bool.true_and]
  exact hany

/-- A node that is alone in its batch is not hidden. -/
theorem Draft.hides_of_alone (hsource : n.source = .batch i) (hstrategy : n.strategy = .batched)
    (honly : ∀ m ∈ d.others, m.source = .batch i → m = n) : (d.plan s root).hides n = false := by
  have hany : d.others.any (fun m => m.source = n.source && m.strategy ≠ .batched) = false := by
    apply List.any_eq_false.mpr
    intro m hm hboth
    simp only [Bool.and_eq_true, decide_eq_true_eq] at hboth
    exact hboth.2 (honly m hm (hboth.1.trans hsource) ▸ hstrategy)
  simp only [Plan.hides, Bool.and_eq_false_iff]
  exact .inr hany

/-- A row has for each node of a statement no key, or the columns of a row of the node's entity. -/
def Draft.Genuine (s : Schema) (db : Database) (d : Draft) (source : RowSource) (row : Row) : Prop :=
  ∀ n ∈ d.nodes, n.source = source → n.key? row = none ∨
    ∃ origin ∈ s.rowsAt db n, n.values row = n.columnsOf origin

/-- The columns of a node that is read from the batch that it opened. -/
theorem Schema.Loads.readOff_rowOf {m : Node} {middle : String} (h : s.Loads n (s.relation id).target)
    (hdeclared : s.Declared)
    (hdot : '.' ∉ n.tableAlias.toList)
    (hnames : ∀ column ∈ (s.target id).columns, ∀ i, column ≠ linkName i) (scopes : List Scope) :
    n.ReadOff (s.collectionBatch r id m n.id n.tableAlias middle).statement.rowOf scopes := by
  intro scope _ column hcolumn
  apply Schema.named_rowOf_collectionBatch hdot hnames
  have hcolumns : n.columns = (s.target id).columns := h.columns
  rcases List.mem_cons.mp hcolumn with rfl | hcolumn
  · exact hcolumns ▸ h.primaryKey_mem hdeclared
  · exact hcolumns ▸ hcolumn

namespace Draft.Finished

variable (h : d.Finished s r db root)

include h

/-- A child loads the target of a relation whose source its parent loads. -/
theorem child (ht : t ∈ d.tree.subtrees) (hc : c ∈ t.children) :
    c ∈ d.tree.subtrees ∧ c.info ∈ d.others ∧ t.info ∈ d.nodes ∧ c.info.parent = some t.info.id ∧
      ∃ id : s.RelationId, c.info.relation = some id.val ∧ s.Loads t.info (s.relation id).source ∧
        s.Loads c.info (s.relation id).target := by
  obtain ⟨hsub, hmem, htmem, hparent⟩ := h.tree.child ht hc
  obtain ⟨hops, hrooted⟩ := h.rooted
  exact ⟨hsub, hmem, htmem, hparent, hrooted.child h.tree h.selects.loads ht hc⟩

/-- Rows lead to rows of the entity that a child loads. -/
theorem delivered_subset (p : Plan) (ht : t ∈ d.tree.subtrees) (hc : c ∈ t.children) (row : Tuple) :
    s.delivered r db p c.info row ⊆ s.rowsAt db c.info := by
  obtain ⟨-, -, -, -, id, hrelation, -, hloads⟩ := h.child ht hc
  rw [Schema.delivered, hloads.rowsAt_eq, Schema.targetsAt_of_relation hrelation]
  split
  · exact List.nil_subset _
  · exact Schema.targets_subset row

/-- A child that is read from the statement of its parent is not hidden. -/
theorem hides_of_source_eq (ht : t ∈ d.tree.subtrees) (hc : c ∈ t.children)
    (hsource : c.info.source = t.info.source) : (d.plan s root).hides c.info = false := by
  obtain ⟨-, hmem, htmem, hparent⟩ := h.tree.child ht hc
  have hstrategy : c.info.strategy ≠ .batched := by
    intro hbatched
    obtain ⟨i, hi, hle⟩ := h.sourced.opened _ hmem _ htmem hparent hbatched
    rw [← hsource, hi] at hle
    exact absurd hle (Nat.not_succ_le_self i)
  simp [Plan.hides, hstrategy]

/-- Delivered rows are those to which a row leads, where nothing opens a batch. -/
theorem stands_delivered {scopes : List Scope} {rows : List Tuple} (ht : t ∈ d.tree.subtrees)
    (hstands : Stands (s.targetsAt r db) t scopes rows) :
    Stands (s.delivered r db (d.plan s root)) t scopes rows := by
  induction hstands with
  | @node n children scopes rows hkeys hshows _ ih =>
    refine .node hkeys hshows fun c hc hsource row hrow => ?_
    have hhides := h.hides_of_source_eq ht hc hsource
    have hsame : s.delivered r db (d.plan s root) c.info row = s.targetsAt r db c.info row := by
      simp [Schema.delivered, hhides]
    rw [hsame]
    exact ih c hc hsource row hrow (LoadTree.subtrees_trans ht
      (LoadTree.mem_subtrees_of_mem_children (t := .node n children) hc))

/-- A node that is alone in its batch is alone in it below itself. -/
theorem alone (hc : c ∈ d.tree.subtrees) (hsource : c.info.source = .batch i)
    (honly : ∀ n ∈ d.others, n.source = .batch i → n = c.info) :
    ∀ u ∈ c.subtrees, u.info.source = c.info.source → u = c := by
  intro u hu husource
  have husub := LoadTree.subtrees_trans hc hu
  have hmem : u.info ∈ d.nodes := h.tree.nodes.mem_iff.mp (LoadTree.info_mem_nodes husub)
  refine LoadTree.eq_of_id_eq h.staged.ids husub hc (congrArg Node.id ?_)
  rcases List.mem_cons.mp hmem with hroot | hmem
  · rw [hroot, h.sourced.root, hsource] at husource
    cases husource
  · exact honly _ hmem (husource.trans hsource)

/-- A batch that names a child is loaded below the records of the parent. -/
theorem parentOf_eq (ht : t ∈ d.tree.subtrees) (hc : c ∈ t.children) (hnode : b.node = c.info.id) :
    (d.plan s root).parentOf b = some t.info.id := by
  obtain ⟨hcsub, -, -, hparent, -⟩ := h.child ht hc
  rw [Plan.parentOf, hnode, h.staged.found c hcsub]
  exact hparent

/-- The columns of a node that is read from the primary statement. -/
theorem readOff_primary (hn : n ∈ d.nodes) (hsource : n.source = .primary) (scopes : List Scope) :
    n.ReadOff d.primary.rowOf scopes := by
  intro scope _ column hcolumn
  obtain ⟨e, he⟩ := h.selects.loads n hn
  have hmem : column ∈ n.columns := by
    rcases List.mem_cons.mp hcolumn with rfl | hcolumn
    · exact he.primaryKey_mem h.declared
    · exact hcolumn
  have hprojected : Projection.column (.of n.tableAlias column) (some (n.label column)) ∈
      d.primary.projections :=
    h.selects.projected n hn hsource (List.mem_map.mpr ⟨column, hmem, rfl⟩)
  exact Select.named_rowOf h.selects.labels.labelled hprojected

/-- A batch that names a node which was joined into it does not name the node that opened it. -/
theorem not_namesOpener (htaken : d.Taken i b) : ¬ (d.plan s root).NamesOpener i b := by
  rintro ⟨m, hm, u, hu, hid, hsource, hopened⟩
  obtain ⟨n, hn, hnid, -, hstrategy⟩ := htaken
  obtain ⟨-, humem, -⟩ := h.tree.child hm hu
  obtain ⟨hops, hrooted⟩ := h.rooted
  obtain rfl := hrooted.eq_of_id_eq (List.mem_cons_of_mem _ hn) (List.mem_cons_of_mem _ humem)
    (hnid.trans hid.symm)
  exact hstrategy (h.sourced.strategy_of_source_ne h.tree hm hu hopened)

/-- The rows of the primary statement are genuine. -/
theorem genuine_primary {scope : Scope} (hrow : row ∈ db.rows (s.entity root).table)
    (hscope : scope ∈ d.scopes db row) : d.Genuine s db .primary (d.primary.rowOf scope) := by
  intro n hn hsource
  have hread := h.readOff_primary hn hsource [scope]
  obtain ⟨hroot, hothers⟩ := h.selects.shown row scope hscope
  rcases List.mem_cons.mp hn with rfl | hmem
  · refine .inr ⟨row, h.loadsRoot.rowsAt_eq ▸ hrow, ?_⟩
    exact hread.values_eq (List.mem_singleton_self _) fun column _ => hroot column
  · obtain ⟨e, he⟩ := h.selects.loads n hn
    rcases hothers n hmem hsource e he with hnone | ⟨origin, horigin, hshows⟩
    · exact .inl ((hread.key?_eq (List.mem_singleton_self _)).trans hnone)
    · exact .inr ⟨origin, he.rowsAt_eq ▸ horigin, hread.values_eq (List.mem_singleton_self _) hshows⟩

/-- A batch that names the node which opened it is as it was opened. -/
theorem opened_of_namesOpener (hb : d.batches[i]? = some b)
    (hnames : (d.plan s root).NamesOpener i b) : d.Opened s r i b :=
  (h.batches i b hb).resolve_right fun htaken => h.not_namesOpener htaken hnames

variable (hr : r.Unqualified) (hfree : s.LinkFree)

section Rows

include hr hfree

/-- The rows of a batch from which only one node is read have the labels of its link and of the node, and
are genuine. -/
theorem rows_of_opened {row : Row} (hopened : d.Opened s r i b) {keys : List (List Value)}
    (hrow : row ∈ (b.forParents keys).rows db) :
    (∃ link, b.linkLabels.mapM row.named = .ok link) ∧
      (∀ n ∈ d.nodes, n.source = .batch i → row.Has n) ∧ d.Genuine s db (.batch i) row := by
  obtain ⟨c, hc, id, m, middle, hsource, -, -, hloads, -, -, hdot, hne, rfl, honly⟩ := hopened
  obtain ⟨way, hway, rfl⟩ := Schema.exists_way_of_mem_rows hr hne hrow
  have hnames := hfree (s.target id) (List.getElem_mem _)
  have hnode : ∀ n ∈ d.nodes, n.source = .batch i → n = c := by
    intro n hn hnsource
    rcases List.mem_cons.mp hn with rfl | hn
    · rw [h.sourced.root] at hnsource
      cases hnsource
    · exact honly n hn hnsource
  have hread : c.ReadOff (s.collectionBatch r id m c.id c.tableAlias middle).statement.rowOf
      [s.wayScope id c.tableAlias middle [] way] := hloads.readOff_rowOf h.declared hdot hnames _
  refine ⟨Schema.exists_link_rowOf_collectionBatch hdot hnames, fun n hn hnsource => ?_,
    fun n hn hnsource => ?_⟩
  · rw [hnode n hn hnsource]
    exact hread.has (List.mem_singleton_self _)
  · rw [hnode n hn hnsource]
    refine .inr ⟨way.1, hloads.rowsAt_eq ▸ (Schema.mem_of_mem_ways hway).1, ?_⟩
    exact hread.values_eq (List.mem_singleton_self _) fun column _ => Schema.wayScope_inner hne column

end Rows

section Answers

variable {answers : Nat → List Row} {primary : List Row} {transcript : Transcript}
  (hanswered : (d.plan s root).Answered primary answers d.batches.zipIdx transcript)
  (hreply : ∀ e ∈ transcript, e.2 = e.1.rows db)
  (hnames : ∀ b i, (b, i) ∈ d.batches.zipIdx → (d.plan s root).NamesOpener i b ∨ answers i = [])

include hanswered hreply hnames hr hfree

/-- What comes back for a batch is genuine. -/
theorem genuine_answers {row : Row} (hrow : row ∈ answers i) : d.Genuine s db (.batch i) row := by
  intro n hn hsource
  obtain ⟨b, hb⟩ : ∃ b, d.batches[i]? = some b :=
    ⟨_, List.getElem?_eq_getElem (h.sourced.lt_of_source hn hsource)⟩
  have hmem : (b, i) ∈ d.batches.zipIdx := List.mem_zipIdx_iff_getElem?.mpr hb
  rcases hnames b i hmem with hopener | hnone
  · rcases hanswered.of_mem (·.rows db) hreply hmem with ⟨hnone, -⟩ | ⟨keys, -, hanswer⟩
    · rw [hnone] at hrow
      exact absurd hrow List.not_mem_nil
    · rw [hanswer] at hrow
      exact (h.rows_of_opened hr hfree (h.opened_of_namesOpener hb hopener) hrow).2.2 n hn hsource
  · rw [hnone] at hrow
    exact absurd hrow List.not_mem_nil

variable (hprimary : ∀ row ∈ primary, d.Genuine s db .primary row)

include hprimary

/-- The records below which a batch is loaded have the columns of rows of the parent's entity. -/
theorem exists_row_of_parents {values : KeyMap Value} (ht : t ∈ d.tree.subtrees)
    (hparent : (d.plan s root).parentOf b = some t.info.id)
    (hvalues : (d.plan s root).Parents primary answers b values) :
    ∃ origin ∈ s.rowsAt db t.info, values = t.info.columnsOf origin := by
  obtain ⟨parent, hparent', hmem⟩ := hvalues
  obtain rfl := Option.some.inj (hparent'.symm.trans hparent)
  have hgood : ∀ row ∈ primary, d.Genuine s db (d.plan s root).tree.info.source row := by
    rw [h.staged.root.1]
    exact hprimary
  obtain ⟨u, hu, hid, row, hgenuine, hkey, rfl⟩ := Plan.exists_row_of_mem_recordsOf
    (fun i row hrow => h.genuine_answers hr hfree hanswered hreply hnames hrow) hgood hmem
  obtain rfl := LoadTree.eq_of_id_eq h.staged.ids hu ht hid
  have hmem : u.info ∈ d.nodes := h.tree.nodes.mem_iff.mp (LoadTree.info_mem_nodes ht)
  exact (hgenuine _ hmem rfl).resolve_left hkey

variable (hsuits : s.Suits db) (hfit : ∀ id : s.RelationId, JoinsFit (s.relation id).join
  (s.relation id).junction (s.entity (s.relation id).source) (s.target id))

include hsuits hfit

/-- The rows of a batch that link to a record of a row are the ways along which the row leads. -/
theorem linked_answers {opener : Node} {number : Nat} {inner middle : String} (ht : t ∈ d.tree.subtrees)
    (hloads : s.Loads t.info (s.relation id).source)
    (hb : d.batches[i]? = some (s.collectionBatch r id opener number inner middle))
    (hparent : (d.plan s root).parentOf (s.collectionBatch r id opener number inner middle) =
      some t.info.id) (hdot : '.' ∉ inner.toList) (hne : inner ≠ middle)
    (hrow : row ∈ s.rowsAt db t.info)
    (hrecord : t.info.columnsOf row ∈
      (d.plan s root).recordsOf answers t.info.id (d.plan s root).tree primary) :
    (s.collectionBatch r id opener number inner middle).linked (t.info.columnsOf row) (answers i) =
      ((s.waysFrom r db id row).map (s.wayScope id inner middle [])).map
        (s.collectionBatch r id opener number inner middle).statement.rowOf := by
  have hparents : (d.plan s root).Parents primary answers
      (s.collectionBatch r id opener number inner middle) (t.info.columnsOf row) :=
    ⟨_, hparent, hrecord⟩
  rw [List.map_map]
  rcases hanswered.of_mem (·.rows db) hreply (List.mem_zipIdx_iff_getElem?.mpr hb) with
    ⟨hnone, hincomplete⟩ | ⟨keys, hasks, hanswer⟩
  · have hsub : (s.relation id).join.left ⊆ t.info.columns := hloads.columns ▸ (hfit id).left
    obtain ⟨column, hcolumn, hnull⟩ :=
      (Node.completeKey_columnsOf_eq_none hsub).mp (hincomplete _ hparents)
    rw [hnone, Batch.linked_nil, Schema.waysFrom_eq_nil hcolumn hnull]
    rfl
  · rw [hanswer]
    refine Schema.linked_collectionBatch hsuits (hfit id) hloads.columns hasks
      (fun values hvalues => ?_) hr hne hdot (hfree _ (List.getElem_mem _))
      (hloads.rowsAt_eq ▸ hrow) hparents
    rw [← hloads.rowsAt_eq]
    exact h.exists_row_of_parents hr hfree hanswered hreply hnames hprimary ht hparent hvalues

/-- A batch from which only the node that opened it is read delivers the node's collections. -/
theorem deliversBelow_of_opened (hopened : d.Opened s r i b) (ht : t ∈ d.tree.subtrees)
    (hc : c ∈ t.children) (hb : d.batches[i]? = some b) (hi : c.info.source = .batch i)
    (hsource : c.info.source ≠ t.info.source) (hrow : row ∈ s.rowsAt db t.info)
    (hrecord : t.info.columnsOf row ∈
      (d.plan s root).recordsOf answers t.info.id (d.plan s root).tree primary) :
    (d.plan s root).DeliversBelow answers (s.delivered r db (d.plan s root)) t.info c row := by
  obtain ⟨hcsub, hcmem, -, hparent, id, hrelation, hloads, hcloads⟩ := h.child ht hc
  obtain ⟨c', -, id', opener, middle, -, -, hrelation', -, hmany, hlimit, hdot, hne, rfl, honly⟩ :=
    hopened
  obtain rfl := honly _ hcmem hi
  obtain rfl : id' = id := Fin.ext (Option.some.inj (hrelation'.symm.trans hrelation))
  have halone := h.alone hcsub hi honly
  have htargets : s.delivered r db (d.plan s root) c.info row =
      (s.target id').once (s.collection r db id' row) := by
    have hhides : (d.plan s root).hides c.info = false :=
      Draft.hides_of_alone hi (h.sourced.strategy_of_source_ne h.tree ht hc hsource) honly
    rw [Schema.delivered, hhides, Schema.targetsAt_of_relation hrelation, Schema.targets_eq_once,
      Schema.led, hmany]
    rfl
  have hlinked := h.linked_answers hr hfree hanswered hreply hnames hprimary hsuits hfit ht hloads hb
    (h.parentOf_eq ht hc rfl) hdot hne hrow hrecord
  refine ⟨(s.collectionBatch r id' opener c.info.id c.info.tableAlias middle).statement.rowOf,
    (s.waysFrom r db id' row).map (s.wayScope id' c.info.tableAlias middle []),
    fun u hu husource => ?_, ?_, fun own hown => ?_⟩
  · rw [halone u hu husource]
    exact hcloads.readOff_rowOf h.declared hdot (hfree _ (List.getElem_mem _)) _
  · obtain ⟨n, children⟩ := c
    apply Schema.stands_waysFrom hsuits hcloads hlimit htargets hne
    intro u hu husource
    have hnot := LoadTree.id_not_mem_ids_of_mem_children
      (LoadTree.ids_nodup_of_mem_subtrees h.staged.ids hcsub) hu
    have heq := halone u (LoadTree.mem_subtrees_of_mem_children (t := .node n children) hu) husource
    exact hnot (heq ▸ LoadTree.id_mem_ids _)
  · rw [Plan.rowsBelow_of_batch hsource hi hb, hown]
    exact hlinked

/-- What comes back for the batches of a plan is what it is meant to deliver. -/
theorem delivers :
    (d.plan s root).Delivers answers primary (s.rowsAt db) (s.delivered r db (d.plan s root)) := by
  intro t ht c hc hsource row hrow hrecord
  obtain ⟨-, hcmem, -⟩ := h.child ht hc
  obtain ⟨i, hi, -⟩ := (h.staged.source t ht c hc).resolve_left hsource
  obtain ⟨b, hb⟩ : ∃ b, d.batches[i]? = some b :=
    ⟨_, List.getElem?_eq_getElem (h.sourced.lt_of_source (List.mem_cons_of_mem _ hcmem) hi)⟩
  rcases h.batches i b hb with hopened | htaken
  · exact h.deliversBelow_of_opened hr hfree hanswered hreply hnames hprimary hsuits hfit hopened ht hc hb
      hi hsource hrow hrecord
  · have hnone : answers i = [] :=
      (hnames b i (List.mem_zipIdx_iff_getElem?.mpr hb)).resolve_left (h.not_namesOpener htaken)
    have htargets : s.delivered r db (d.plan s root) c.info row = [] := by
      rw [Schema.delivered, htaken.hides hi (h.sourced.strategy_of_source_ne h.tree ht hc hsource)]
      rfl
    refine ⟨d.primary.rowOf, [], fun u _ _ scope hscope => absurd hscope List.not_mem_nil, ?_, ?_⟩
    · rw [htargets]
      exact .nil c
    · intro own _
      rw [Plan.rowsBelow_of_batch hsource hi hb, hnone, Batch.linked_nil]
      rfl

end Answers

end Draft.Finished

end EagerLoad
