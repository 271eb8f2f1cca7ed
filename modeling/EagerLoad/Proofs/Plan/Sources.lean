import EagerLoad.Hydration.Batch
import EagerLoad.Proofs.Plan.Shape

/-!
# Which statement a node is read from

A node is read from the statement of its parent, unless it opens a batch. A batch is opened by one node,
and comes after the statement of that node's parent. So the statements of a plan can be put in order,
and the records below which a batch is loaded are complete by then.
-/

namespace EagerLoad

/-- The position of a statement in the order in which the statements of a plan are put. -/
def RowSource.position : RowSource → Nat
  | .primary => 0
  | .batch index => index + 1

/-- The statements of the nodes of a draft. -/
structure Draft.Sourced (d : Draft) : Prop where
  root : d.root.source = .primary
  joined : ∀ n ∈ d.others, ∀ m ∈ d.nodes, n.parent = some m.id → n.strategy ≠ .batched →
    n.source = m.source
  /-- A node that opens a batch comes after the statement of its parent. -/
  opened : ∀ n ∈ d.others, ∀ m ∈ d.nodes, n.parent = some m.id → n.strategy = .batched →
    ∃ i, n.source = .batch i ∧ m.source.position ≤ i
  /-- A batch is opened by one node. -/
  owner : ∀ n ∈ d.others, ∀ m ∈ d.others, n.strategy = .batched → m.strategy = .batched →
    n.source = m.source → n = m
  bounded : ∀ n ∈ d.nodes, n.source.position ≤ d.batches.length
  /-- The node that a batch names is read from it. -/
  named : ∀ i b, d.batches[i]? = some b → ∃ n ∈ d.others, n.id = b.node ∧ n.source = .batch i

variable {s : Schema} {r : Request} {root : s.EntityId} {hops : List s.RelationId} {d d' : Draft}
  {id : s.RelationId} {parent n : Node} {p : Plan}

@[simp] theorem Draft.length_batches_modify (d : Draft) (source : RowSource)
    (change : Sql.Select → Sql.Select) : (d.modify source change).batches.length = d.batches.length := by
  cases source <;> simp [Draft.modify]

@[simp] theorem Draft.length_batches_entrust (d : Draft) (n : Node) :
    (d.entrust n).batches.length = d.batches.length := by
  unfold Draft.entrust
  split <;> simp

/-- Changing a statement does not change which node a batch names. -/
theorem Draft.node_of_modify {source : RowSource} {change : Sql.Select → Sql.Select} {i : Nat}
    {b : Batch} (h : (d.modify source change).batches[i]? = some b) :
    ∃ b₀, d.batches[i]? = some b₀ ∧ b.node = b₀.node := by
  cases source with
  | primary => exact ⟨b, h, rfl⟩
  | batch j =>
    simp only [Draft.modify, List.getElem?_modify, Option.map_eq_map, Option.map_eq_some_iff] at h
    obtain ⟨b₀, hb₀, rfl⟩ := h
    refine ⟨b₀, hb₀, ?_⟩
    split <;> rfl

/-- A batch names the node that it was entrusted to, or the one it named before. -/
theorem Draft.node_of_entrust {i : Nat} {b : Batch} (h : (d.entrust n).batches[i]? = some b) :
    (n.source = .batch i ∧ b.node = n.id) ∨ d.batches[i]? = some b := by
  unfold Draft.entrust at h
  split at h
  · exact .inr h
  · rename_i j hj
    simp only [List.getElem?_modify, Option.map_eq_map, Option.map_eq_some_iff] at h
    obtain ⟨b₀, hb₀, rfl⟩ := h
    by_cases hji : j = i
    · subst hji
      exact .inl ⟨hj, by simp⟩
    · simp [hji, hb₀]

/-- Where numbers are positions, a node is told by its number. -/
theorem Draft.Rooted.eq_of_id_eq (hd : d.Rooted s hops) {m m' : Node} (hm : m ∈ d.nodes)
    (hm' : m' ∈ d.nodes) (h : m.id = m'.id) : m = m' := by
  have hnodup : (d.nodes.map (·.id)).Nodup := hd.ids ▸ List.nodup_range
  exact List.inj_on_of_nodup_map hnodup hm hm' h

/-- A node read from a batch shows that the batch is there. -/
theorem Draft.Sourced.lt_of_source (hs : d.Sourced) {i : Nat} (hn : n ∈ d.nodes)
    (h : n.source = .batch i) : i < d.batches.length := by
  have hle := hs.bounded n hn
  rw [h] at hle
  exact hle

/-- Attaching a hop loses no batch, and the new node is read from a statement that is there. -/
theorem Draft.Sourced.length_batches_attach (hs : d.Sourced) (hmem : parent ∈ d.nodes)
    (ha : (s.hop r parent id).attach r d = .ok (n, d')) :
    d.batches.length ≤ d'.batches.length ∧ n.source.position ≤ d'.batches.length := by
  obtain ⟨a, hplace, hn, hd'eq⟩ := Hop.attach_eq_ok ha
  have hnsource : n.source = a.source := by rw [hn]; rfl
  rw [hd'eq, Draft.length_batches_entrust, hnsource]
  rcases (Hop.placed_of_place hplace).source with
    ⟨hsource, -, _, _, change, hdraft⟩ | ⟨hsource, -, -, _, _, hdraft, -⟩
  · have hparent : parent.source.position ≤ d.batches.length := hs.bounded parent hmem
    rw [hdraft, hsource, Draft.length_batches_modify]
    exact ⟨le_refl _, hparent⟩
  · rw [hdraft, hsource]
    simp [RowSource.position]

/-- After a hop is attached, the node that a batch names is still read from it. -/
theorem Draft.Sourced.named_attach (hs : d.Sourced)
    (ha : (s.hop r parent id).attach r d = .ok (n, d')) {i : Nat} {b : Batch}
    (hb : d'.batches[i]? = some b) : ∃ m ∈ d'.others, m.id = b.node ∧ m.source = .batch i := by
  obtain ⟨-, hothers⟩ := Hop.nodes_of_attach ha
  obtain ⟨a, hplace, hn, hd'eq⟩ := Hop.attach_eq_ok ha
  have hnsource : n.source = a.source := by rw [hn]; rfl
  have hnmem : n ∈ d'.others := by simp [hothers]
  rw [hd'eq] at hb
  rcases Draft.node_of_entrust hb with ⟨hsource, hnode⟩ | hb
  · exact ⟨n, hnmem, hnode.symm, hsource⟩
  · have hthere : ∀ b₀, d.batches[i]? = some b₀ → b.node = b₀.node →
        ∃ m ∈ d'.others, m.id = b.node ∧ m.source = .batch i := by
      intro b₀ hb₀ hnode
      obtain ⟨m, hm, hid, hsource⟩ := hs.named i b₀ hb₀
      exact ⟨m, hothers ▸ List.mem_append_left _ hm, hid.trans hnode.symm, hsource⟩
    rcases (Hop.placed_of_place hplace).source with ⟨-, -, _, _, change, hdraft⟩ |
      ⟨hsource, -, -, aliases, batch, hdraft, hnode, -⟩
    · rw [hdraft] at hb
      obtain ⟨b₀, hb₀, hnode⟩ := Draft.node_of_modify hb
      exact hthere b₀ hb₀ hnode
    · rw [hdraft] at hb
      simp only [List.getElem?_append] at hb
      split at hb
      · exact hthere b hb rfl
      · rename_i hi
        rw [List.getElem?_singleton] at hb
        split at hb
        · obtain rfl : batch = b := Option.some.inj hb
          have hlast : d.batches.length = i := by omega
          refine ⟨n, hnmem, ?_, ?_⟩
          · rw [hnode, hn]
            rfl
          · rw [hnsource, hsource, hlast]
        · cases hb

/-- Attaching a hop keeps the statements in order. -/
theorem Draft.Sourced.attach (hs : d.Sourced) (hd : d.Rooted s hops) (hd' : d'.Rooted s (hops ++ [id]))
    (hmem : parent ∈ d.nodes) (ha : (s.hop r parent id).attach r d = .ok (n, d')) : d'.Sourced := by
  obtain ⟨hroot, hothers⟩ := Hop.nodes_of_attach ha
  obtain ⟨a, hplace, hn, -⟩ := Hop.attach_eq_ok ha
  have hplaced := Hop.placed_of_place hplace
  have hnparent : n.parent = some parent.id := by rw [hn]; rfl
  have hnsource : n.source = a.source := by rw [hn]; rfl
  have hnstrategy : n.strategy = a.strategy := by rw [hn]; rfl
  have hnodes : d'.nodes = d.nodes ++ [n] := by simp [Draft.nodes, hroot, hothers]
  -- The parent of the new node is the node at which the walk stands.
  have honly : ∀ m ∈ d'.nodes, n.parent = some m.id → m = parent := by
    intro m hm hp
    have hid : m.id = parent.id := Option.some.inj (hp.symm.trans hnparent)
    exact hd'.eq_of_id_eq hm (hnodes ▸ List.mem_append_left _ hmem) hid
  -- No node that was there hangs below the new one.
  have hold : ∀ m ∈ d.others, ∀ q ∈ d'.nodes, m.parent = some q.id → q ∈ d.nodes := by
    intro m hm q hq hp
    obtain ⟨q', hq', hparent, -⟩ := hd.below m hm
    have hid : q.id = q'.id := Option.some.inj (hp.symm.trans hparent)
    rw [hd'.eq_of_id_eq hq (hnodes ▸ List.mem_append_left _ hq') hid]
    exact hq'
  have hlength := hs.length_batches_attach hmem ha
  constructor
  case root => rw [hroot, hs.root]
  case joined =>
    intro m hm q hq hp hstrategy
    rw [hothers, List.mem_append, List.mem_singleton] at hm
    rcases hm with hm | rfl
    · exact hs.joined m hm q (hold m hm q hq hp) hp hstrategy
    · rw [honly q hq hp, hnsource]
      rcases hplaced.source with ⟨hsource, -⟩ | ⟨-, hbatched, -⟩
      · exact hsource
      · exact absurd (hnstrategy.trans hbatched) hstrategy
  case opened =>
    intro m hm q hq hp hstrategy
    rw [hothers, List.mem_append, List.mem_singleton] at hm
    rcases hm with hm | rfl
    · exact hs.opened m hm q (hold m hm q hq hp) hp hstrategy
    · rcases hplaced.source with ⟨-, hne, -⟩ | ⟨hsource, -⟩
      · exact absurd (hnstrategy.symm.trans hstrategy) hne
      · refine ⟨_, hnsource.trans hsource, ?_⟩
        rw [honly q hq hp]
        exact hs.bounded parent hmem
  case owner =>
    -- A batch that is opened now is none of those that nodes are read from.
    have hfresh : ∀ m ∈ d.others, n.strategy = .batched → m.source ≠ n.source := by
      intro m hm hstrategy heq
      rcases hplaced.source with ⟨-, hne, -⟩ | ⟨hsource, -⟩
      · exact hne (hnstrategy.symm.trans hstrategy)
      · have hlt := hs.lt_of_source (List.mem_cons_of_mem _ hm) (heq.trans (hnsource.trans hsource))
        exact lt_irrefl _ hlt
    intro m hm q hq hmb hqb heq
    rw [hothers, List.mem_append, List.mem_singleton] at hm hq
    rcases hm with hm | rfl <;> rcases hq with hq | rfl
    · exact hs.owner m hm q hq hmb hqb heq
    · exact absurd heq (hfresh m hm hqb)
    · exact absurd heq.symm (hfresh q hq hmb)
    · rfl
  case bounded =>
    intro m hm
    rw [hnodes, List.mem_append, List.mem_singleton] at hm
    rcases hm with hm | rfl
    · exact (hs.bounded m hm).trans hlength.1
    · exact hlength.2
  case named => exact fun i b => hs.named_attach ha

/-- In every draft that a compilation passes through, the statements are in order. -/
theorem Schema.Compiling.sourced (h : s.Compiling r root hops d) : d.Sourced := by
  induction h with
  | start =>
    refine ⟨rfl, ?_, ?_, ?_, ?_, ?_⟩
    all_goals simp [Schema.rootDraft, Draft.nodes, RowSource.position]
  | reuse _ _ ih => exact ih
  | attach h hmem hsource hnew ha ih =>
    exact ih.attach h.rooted (h.attach hmem hsource hnew ha).rooted hmem ha

/-- The statements of the nodes of a plan. -/
structure Plan.Staged (p : Plan) : Prop where
  ids : p.tree.ids.Nodup
  /-- Nodes are found by their numbers. -/
  found : ∀ t ∈ p.tree.subtrees, p.node? t.info.id = some t.info
  root : p.tree.info.source = .primary ∧ p.tree.info.parent = none
  parent : ∀ t ∈ p.tree.subtrees, ∀ c ∈ t.children, c.info.parent = some t.info.id
  /-- A node opens a batch that comes after the statement of its parent, or is read from that. -/
  source : ∀ t ∈ p.tree.subtrees, ∀ c ∈ t.children, c.info.source = t.info.source ∨
    ∃ i, c.info.source = .batch i ∧ t.info.source.position ≤ i
  /-- A batch is opened once. -/
  owner : ∀ t ∈ p.tree.subtrees, ∀ c ∈ t.children, ∀ u ∈ p.tree.subtrees, ∀ e ∈ u.children,
    c.info.source ≠ t.info.source → e.info.source ≠ u.info.source →
    c.info.source = e.info.source → c = e
  /-- The node that a batch names is read from it. -/
  named : ∀ i b, p.batches[i]? = some b →
    ∃ t ∈ p.tree.subtrees, t.info.id = b.node ∧ t.info.source = .batch i

/-- The tree of a draft has its root at the top. -/
theorem Draft.info_tree (d : Draft) : d.tree.info = d.root := by
  have hfold : ∀ (others : List Node) (t : LoadTree),
      (others.foldl (fun tree n => tree.attach n) t).info = t.info := by
    intro others
    induction others with
    | nil => exact fun t => rfl
    | cons n rest ih =>
      intro t
      rw [List.foldl_cons, ih, LoadTree.info_attach]
  exact hfold d.others _

/-- A child in the tree of a draft is one of the nodes below the root, and hangs below its parent. -/
theorem Draft.TreeMatches.child (ht : d.TreeMatches) {t c : LoadTree} (hu : t ∈ d.tree.subtrees)
    (hc : c ∈ t.children) :
    c ∈ d.tree.subtrees ∧ c.info ∈ d.others ∧ t.info ∈ d.nodes ∧ c.info.parent = some t.info.id := by
  have hmem : c.info ∈ t.children.map (·.info) := List.mem_map_of_mem hc
  rw [ht.children t hu, List.mem_filter] at hmem
  refine ⟨LoadTree.subtrees_trans hu (LoadTree.mem_subtrees_of_mem_children hc), hmem.1, ?_, ?_⟩
  · exact ht.nodes.mem_iff.mp (LoadTree.info_mem_nodes hu)
  · simpa using hmem.2

/-- A child that is read from another statement than its parent is batched. -/
theorem Draft.Sourced.strategy_of_source_ne (hs : d.Sourced) (htree : d.TreeMatches) {t c : LoadTree}
    (ht : t ∈ d.tree.subtrees) (hc : c ∈ t.children) (hsource : c.info.source ≠ t.info.source) :
    c.info.strategy = .batched := by
  obtain ⟨-, hmem, htmem, hparent⟩ := htree.child ht hc
  by_contra hstrategy
  exact hsource (hs.joined _ hmem _ htmem hparent hstrategy)

/-- The statements of a compiled plan are in order. -/
theorem Schema.compile_staged (h : s.compile r = .ok p) : p.Staged := by
  obtain ⟨root, d, -, hd, rfl⟩ := Schema.compile_eq_ok h
  have hshape := hd.rooted
  have htree := hd.treeMatches
  have hsourced := hd.sourced
  have hids := htree.ids_nodup hshape
  constructor
  case ids => exact hids
  case found =>
    intro t ht
    have hmem : t.info ∈ d.nodes := htree.nodes.mem_iff.mp (LoadTree.info_mem_nodes ht)
    have hfound : (d.nodes.find? (·.id == t.info.id)).isSome := by
      rw [List.find?_isSome]
      exact ⟨_, hmem, by simp⟩
    obtain ⟨m, hm⟩ := Option.isSome_iff_exists.mp hfound
    refine hm.trans (congrArg some ?_)
    exact hshape.eq_of_id_eq (List.mem_of_find?_eq_some hm) hmem (by simpa using List.find?_some hm)
  case root =>
    have hinfo : (Draft.plan s root d).tree.info = d.root := d.info_tree
    rw [hinfo, hsourced.root, hd.root_eq]
    exact ⟨rfl, rfl⟩
  case parent => exact fun t ht c hc => (htree.child ht hc).2.2.2
  case source =>
    intro t ht c hc
    obtain ⟨-, hcmem, htmem, hparent⟩ := htree.child ht hc
    by_cases hstrategy : c.info.strategy = .batched
    · exact .inr (hsourced.opened _ hcmem _ htmem hparent hstrategy)
    · exact .inl (hsourced.joined _ hcmem _ htmem hparent hstrategy)
  case owner =>
    intro t ht c hc u hu e he hct heu heq
    obtain ⟨hcsub, hcmem, -⟩ := htree.child ht hc
    obtain ⟨hesub, hemem, -⟩ := htree.child hu he
    have hinfo := hsourced.owner _ hcmem _ hemem (hsourced.strategy_of_source_ne htree ht hc hct)
      (hsourced.strategy_of_source_ne htree hu he heu) heq
    exact LoadTree.eq_of_id_eq hids hcsub hesub (congrArg (·.id) hinfo)
  case named =>
    intro i b hb
    obtain ⟨n, hn, hid, hsource⟩ := hsourced.named i b hb
    have hmem := htree.nodes.mem_iff.mpr (List.mem_cons_of_mem _ hn)
    obtain ⟨t, ht, rfl⟩ := List.mem_map.mp hmem
    exact ⟨t, ht, hid, hsource⟩

namespace Plan.Staged

variable {t m u : LoadTree}

/-- A tree hangs below one tree. -/
theorem parent_unique (hp : p.Staged) (ht : t ∈ p.tree.subtrees) (hm : m ∈ p.tree.subtrees)
    (hut : u ∈ t.children) (hum : u ∈ m.children) : t = m := by
  refine LoadTree.eq_of_id_eq hp.ids ht hm (Option.some.inj ?_)
  rw [← hp.parent t ht u hut, ← hp.parent m hm u hum]

/-- What is in a subtree hangs below something in it, except the subtree itself. -/
theorem id_mem_ids_of_child (hp : p.Staged) {c : LoadTree} (ht : t ∈ p.tree.subtrees)
    (hu : u ∈ p.tree.subtrees) (hc : c ∈ t.children) (hcu : c.info.id ∈ u.ids) :
    c = u ∨ t.info.id ∈ u.ids := by
  have hcsub := LoadTree.subtrees_trans ht (LoadTree.mem_subtrees_of_mem_children hc)
  rw [LoadTree.ids_eq_map_subtrees] at hcu
  obtain ⟨v, hv, hid⟩ := List.mem_map.mp hcu
  obtain rfl := LoadTree.eq_of_id_eq hp.ids (LoadTree.subtrees_trans hu hv) hcsub hid
  rcases LoadTree.eq_or_mem_children hv with rfl | ⟨e, he, hve⟩
  · exact .inl rfl
  · rw [hp.parent_unique ht (LoadTree.subtrees_trans hu he) hc hve]
    exact .inr (LoadTree.ids_subset he (LoadTree.id_mem_ids e))

/-- Statements come no earlier further down. -/
theorem position_le (hp : p.Staged) (ht : t ∈ p.tree.subtrees) (hu : u ∈ t.subtrees) :
    t.info.source.position ≤ u.info.source.position := by
  induction t using LoadTree.induction with
  | node n children ih =>
    rcases LoadTree.mem_subtrees_node.mp hu with rfl | ⟨c, hc, hcu⟩
    · exact le_refl _
    · have hcsub := LoadTree.subtrees_trans ht
        (LoadTree.mem_subtrees_of_mem_children (t := .node n children) hc)
      refine le_trans ?_ (ih c hc hcsub hcu)
      rcases hp.source _ ht c hc with heq | ⟨i, hi, hle⟩
      · exact (congrArg RowSource.position heq).ge
      · rw [hi]
        exact Nat.le_succ_of_le hle

/-- The root is below nothing. -/
theorem root_not_mem_ids (hp : p.Staged) (hm : m ∈ p.tree.subtrees) (hu : u ∈ m.children) :
    p.tree.info.id ∉ u.ids := by
  intro hid
  have husub := LoadTree.subtrees_trans hm (LoadTree.mem_subtrees_of_mem_children hu)
  rw [LoadTree.ids_eq_map_subtrees] at hid
  obtain ⟨v, hv, heq⟩ := List.mem_map.mp hid
  have hvroot := LoadTree.eq_of_id_eq hp.ids (LoadTree.subtrees_trans husub hv)
    (LoadTree.mem_subtrees_self _) heq
  have hparent : ∃ e ∈ p.tree.subtrees, v ∈ e.children := by
    rcases LoadTree.eq_or_mem_children hv with rfl | ⟨e, he, hve⟩
    · exact ⟨m, hm, hu⟩
    · exact ⟨e, LoadTree.subtrees_trans husub he, hve⟩
  obtain ⟨e, he, hve⟩ := hparent
  have hsome := hp.parent e he v hve
  rw [hvroot, hp.root.2] at hsome
  cases hsome

/-- The node that a batch names hangs below a node, and is found with it. -/
theorem batch (hp : p.Staged) {i : Nat} {b : Batch} (hb : p.batches[i]? = some b) :
    ∃ m ∈ p.tree.subtrees, ∃ u ∈ m.children, u.info.id = b.node ∧ u.info.source = .batch i ∧
      p.node? b.node = some u.info ∧ u.info.parent = some m.info.id := by
  obtain ⟨u, hu, hid, hsource⟩ := hp.named i b hb
  rcases LoadTree.eq_or_mem_children hu with rfl | ⟨m, hm, hum⟩
  · rw [hp.root.1] at hsource
    cases hsource
  · exact ⟨m, hm, u, hum, hid, hsource, hid ▸ hp.found u hu, hp.parent m hm u hum⟩

end Plan.Staged

end EagerLoad
