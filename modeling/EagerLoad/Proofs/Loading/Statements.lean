import EagerLoad.Proofs.Loading.Primary

/-!
# The statements of a compiled plan

Every draft of a compilation without a self key has a primary statement that stands for the root rows, and
batches of two kinds. A batch from which only the node that opened it is read is as it was opened. In any
other one the node that the batch names is not the one that opened it.
-/

namespace EagerLoad

open Sql

variable {s : Schema} {r : Request} {db : Database} {root : s.EntityId} {hops : List s.RelationId}
  {d d' : Draft} {id : s.RelationId} {parent n : Node} {a : Attachment} {i : Nat} {b : Batch}

/-- Only the node that opened a batch is read from it, and the batch selects the node's collection. -/
def Draft.Opened (s : Schema) (r : Request) (d : Draft) (i : Nat) (b : Batch) : Prop :=
  ∃ c ∈ d.others, ∃ (id : s.RelationId) (m : Node) (middle : String),
    c.source = .batch i ∧ c.strategy = .batched ∧ c.relation = some id.val ∧
      s.Loads c (s.relation id).target ∧ (s.relation id).cardinality = .many ∧ r.limit = none ∧
      '.' ∉ c.tableAlias.toList ∧ c.tableAlias ≠ middle ∧
      b = s.collectionBatch r id m c.id c.tableAlias middle ∧
      ∀ n ∈ d.others, n.source = .batch i → n = c

/-- A batch names a node that was joined into it later. -/
def Draft.Taken (d : Draft) (i : Nat) (b : Batch) : Prop :=
  ∃ n ∈ d.others, n.id = b.node ∧ n.source = .batch i ∧ n.strategy ≠ .batched

/-- The batches of a draft. -/
def Draft.Batches (s : Schema) (r : Request) (d : Draft) : Prop :=
  ∀ i b, d.batches[i]? = some b → d.Opened s r i b ∨ d.Taken i b

/-- A further node that is not read from a batch leaves it as it is. -/
theorem Draft.batch_of_others (hothers : d'.others = d.others ++ [n]) (hn : n.source ≠ .batch i)
    (h : d.Opened s r i b ∨ d.Taken i b) : d'.Opened s r i b ∨ d'.Taken i b := by
  rcases h with ⟨c, hc, id, m, middle, hsource, hstrategy, hrelation, hloads, hmany, hlimit, hdot, hne,
    hb, honly⟩ | ⟨m, hm, hid, hsource, hstrategy⟩
  · refine .inl ⟨c, hothers ▸ List.mem_append_left _ hc, id, m, middle, hsource, hstrategy, hrelation,
      hloads, hmany, hlimit, hdot, hne, hb, fun q hq hqsource => ?_⟩
    rw [hothers, List.mem_append, List.mem_singleton] at hq
    rcases hq with hq | rfl
    · exact honly q hq hqsource
    · exact absurd hqsource hn
  · exact .inr ⟨m, hothers ▸ List.mem_append_left _ hm, hid, hsource, hstrategy⟩

namespace Draft.Batches

/-- Joining a node into the primary statement leaves the batches as they are. -/
theorem of_eq (h : d.Batches s r) (hothers : d'.others = d.others ++ [n])
    (hbatches : d'.batches = d.batches) (hn : n.source = .primary) : d'.Batches s r := by
  intro i b hb
  rw [hbatches] at hb
  exact Draft.batch_of_others hothers (by simp [hn]) (h i b hb)

/-- A batch into which a node is joined names the node. -/
theorem of_modify {j : Nat} {change : Select → Select} (h : d.Batches s r)
    (hothers : d'.others = d.others ++ [n])
    (hbatches : d'.batches = ((d.modify (.batch j) change).entrust n).batches)
    (hn : n.source = .batch j) (hstrategy : n.strategy ≠ .batched) : d'.Batches s r := by
  intro i b hb
  rw [hbatches] at hb
  simp only [Draft.entrust, hn, Draft.modify, List.getElem?_modify, Option.map_eq_map,
    Option.map_map, Option.map_eq_some_iff] at hb
  obtain ⟨b₀, hb₀, rfl⟩ := hb
  by_cases hji : j = i
  · refine .inr ⟨n, by simp [hothers], ?_, hji ▸ hn, hstrategy⟩
    simp [hji]
  · have hsource : n.source ≠ .batch i := by simpa [hn] using hji
    simpa [hji] using Draft.batch_of_others hothers hsource (h i b₀ hb₀)

/-- A node that opens a batch is the only one that is read from it. -/
theorem of_append {m : Node} {middle : String} (h : d.Batches s r) (hs : d.Sourced)
    (hothers : d'.others = d.others ++ [n])
    (hbatches : d'.batches = ({ d with batches := d.batches ++
      [s.collectionBatch r id m n.id n.tableAlias middle] }.entrust n).batches)
    (hn : n.source = .batch d.batches.length) (hstrategy : n.strategy = .batched)
    (hrelation : n.relation = some id.val) (hloads : s.Loads n (s.relation id).target)
    (hmany : (s.relation id).cardinality = .many) (hlimit : r.limit = none)
    (hdot : '.' ∉ n.tableAlias.toList) (hne : n.tableAlias ≠ middle) : d'.Batches s r := by
  intro i b hb
  rw [hbatches] at hb
  simp only [Draft.entrust, hn, List.getElem?_modify, Option.map_eq_map, Option.map_eq_some_iff] at hb
  obtain ⟨b₀, hb₀, rfl⟩ := hb
  rw [List.getElem?_append] at hb₀
  split at hb₀
  · rename_i hlt
    have hsource : n.source ≠ .batch i := by
      rw [hn]
      intro heq
      cases heq
      exact lt_irrefl _ hlt
    simpa [hlt.ne'] using Draft.batch_of_others hothers hsource (h i b₀ hb₀)
  · rename_i hle
    rw [List.getElem?_singleton] at hb₀
    split at hb₀
    · obtain rfl := Option.some.inj hb₀
      obtain rfl : i = d.batches.length := by omega
      refine .inl ⟨n, by simp [hothers], id, m, middle, hn, hstrategy, hrelation, hloads, hmany, hlimit,
        hdot, hne, ?_, fun q hq hqsource => ?_⟩
      · simp [Schema.collectionBatch]
      · rw [hothers, List.mem_append, List.mem_singleton] at hq
        rcases hq with hq | rfl
        · exact absurd (hs.lt_of_source (List.mem_cons_of_mem _ hq) hqsource) (lt_irrefl _)
        · rfl
    · cases hb₀

end Draft.Batches

/-- A hop from a node of a draft is attached as a further node. -/
structure Draft.Attaches (s : Schema) (r : Request) (d : Draft) (parent : Node) (id : s.RelationId)
    (a : Attachment) (n : Node) (d' : Draft) : Prop where
  node : n = (s.hop r parent id).node d a
  draft : d' = { a.draft with others := d.others ++ [n], notes := a.draft.notes.visit n }.entrust n
  root : d'.root = d.root
  tree : d'.tree = d.tree.attach n
  mem : parent ∈ d.nodes
  /-- No other node of the draft has the identifier of the parent. -/
  only : ∀ m ∈ d.nodes, n.parent = some m.id → m = parent

namespace Draft.Attaches

variable (h : d.Attaches s r parent id a n d')

include h

theorem loads : s.Loads n (s.relation id).target := h.node ▸ ⟨rfl, rfl, rfl⟩

theorem relation_eq : n.relation = some id.val := h.node ▸ rfl

theorem source_eq : n.source = a.source := h.node ▸ rfl

theorem strategy_eq : n.strategy = a.strategy := h.node ▸ rfl

theorem tableAlias_eq : n.tableAlias = a.tableAlias := h.node ▸ rfl

theorem others : d'.others = d.others ++ [n] := by
  rw [h.draft]
  simp

theorem primary : d'.primary = a.draft.primary := by
  rw [h.draft, Draft.primary_entrust]

theorem grows (hused : d.aliases.used ≤ a.draft.aliases.used)
    (hgiven : a.draft.aliases.Given a.tableAlias) : Draft.Grows s d n d' := by
  have haliases : d'.aliases = a.draft.aliases := by rw [h.draft, Draft.aliases_entrust]
  refine ⟨h.root, h.others, h.tree, ⟨_, h.loads⟩, haliases ▸ hused, ?_⟩
  rw [haliases, h.tableAlias_eq]
  exact hgiven

end Draft.Attaches

namespace Draft.Selects

/-- A node that is joined into the statement of its parent. -/
theorem attach_joined {joins : List Join} {aliases : AliasSupply} (h : d.Selects s r db root)
    (hb : d.Batches s r) (ht : d.TreeMatches) (hs : d.Sourced) (hsuits : s.Suits db)
    (ha : d.Attaches s r parent id a n d') (hj : s.Joined r db id d parent a joins aliases) :
    d'.Selects s r db root ∧ d'.Batches s r := by
  obtain ⟨notes, hdraft⟩ := hj.draft
  have haliases : a.draft.aliases = aliases := by simp [hdraft]
  have hgrows : Draft.Grows s d n d' := ha.grows (haliases ▸ hj.used) (haliases ▸ hj.given)
  have hsource : n.source = parent.source := ha.source_eq.trans hj.source
  cases hps : parent.source with
  | primary =>
    have hnprimary : n.source = .primary := hsource.trans hps
    constructor
    · have hjoins : d'.primary = d.primary.bringIn joins n.tableAlias n.columns := by
        rw [ha.primary, hdraft, hps, ha.tableAlias_eq, ha.loads.columns]
        rfl
      have hparent : n.parent = some parent.id := ha.node ▸ rfl
      refine h.join hgrows hsuits ht.nodes.subset hjoins hj.fresh hj.left ha.loads ha.relation_eq
        (fun m hm hmid => ?_) ⟨parent, ha.mem, hparent⟩
      obtain rfl := ha.only m hm hmid
      exact hj.brings n _ ha.loads ha.tableAlias_eq
    · refine hb.of_eq ha.others ?_ hnprimary
      rw [ha.draft, hdraft, hps]
      simp [Draft.entrust, hnprimary, Draft.modify]
  | batch j =>
    have hnbatch : n.source = .batch j := hsource.trans hps
    constructor
    · refine h.keep hgrows ?_ hs.root (by simp [hnbatch])
      rw [ha.primary, hdraft, hps]
      rfl
    · have hbatches : d'.batches = ((d.modify (.batch j)
          (Select.bringIn joins a.tableAlias (s.target id).columns)).entrust n).batches := by
        rw [ha.draft, hdraft, hps]
        simp [Draft.entrust, hnbatch, Draft.modify]
      exact hb.of_modify ha.others hbatches hnbatch (ha.strategy_eq ▸ hj.strategy)

/-- A node that opens a batch. -/
theorem attach_batch (h : d.Selects s r db root) (hb : d.Batches s r) (hs : d.Sourced)
    (ha : d.Attaches s r parent id a n d') (hmany : (s.relation id).cardinality = .many)
    (hlimit : r.limit = none) (hbatch : (s.hop r parent id).loadBatch r.ordering d = .ok a) :
    d'.Selects s r db root ∧ d'.Batches s r := by
  obtain ⟨middle, aliases, hused, hgiven, hne, hopened⟩ := Schema.loadBatch_eq_ok hlimit hbatch
  have haliases : a.draft.aliases = aliases := by rw [hopened]
  have hgrows : Draft.Grows s d n d' := ha.grows (haliases ▸ hused) (haliases ▸ hgiven)
  have hsource : n.source = .batch d.batches.length := by rw [ha.source_eq, hopened]
  constructor
  · refine h.keep hgrows ?_ hs.root (by simp [hsource])
    rw [ha.primary, hopened]
  · have hbatches : d'.batches = ({ d with batches := d.batches ++
        [s.collectionBatch r id parent n.id n.tableAlias middle] }.entrust n).batches := by
      have hid : n.id = d.others.length + 1 := ha.node ▸ rfl
      have hdraft := congrArg (·.draft) hopened
      dsimp only at hdraft
      rw [ha.draft, hdraft, ha.tableAlias_eq, ← hid]
      simp only [Draft.entrust, hsource]
    refine hb.of_append hs ha.others hbatches hsource ?_ ha.relation_eq ha.loads hmany hlimit ?_ ?_
    · rw [ha.strategy_eq, hopened]
    · rw [ha.tableAlias_eq]
      exact hgiven.dotless
    · rw [ha.tableAlias_eq]
      exact hne

end Draft.Selects

variable (hself : r.selfKey = none) (hr : r.Unqualified) (hsuits : s.Suits db)
  (hfit : ∀ id : s.RelationId, JoinsFit (s.relation id).join (s.relation id).junction
    (s.entity (s.relation id).source) (s.target id))

include hself hr hsuits hfit

/-- Attaching a hop keeps what the statements select. -/
theorem Draft.Selects.attach (h : d.Selects s r db root) (hb : d.Batches s r) (hd : d.Rooted s hops)
    (ht : d.TreeMatches) (hs : d.Sourced) (hmem : parent ∈ d.nodes)
    (hsource : parent.entity = (s.relation id).source)
    (ha : (s.hop r parent id).attach r d = .ok (n, d')) :
    d'.Selects s r db root ∧ d'.Batches s r := by
  obtain ⟨a, hplace, hn, hattach⟩ := Hop.attach_eq_ok ha
  have hparent : n.parent = some parent.id := hn ▸ rfl
  have hattaches : d.Attaches s r parent id a n d' :=
    { node := hn
      draft := hattach
      root := (Hop.nodes_of_attach ha).1
      tree := Draft.tree_attach ha
      mem := hmem
      only := by
        intro m hm hmid
        rw [hparent] at hmid
        exact hd.eq_of_id_eq hm hmem (Option.some.inj hmid).symm }
  have hcolumns : parent.columns = (s.entity (s.relation id).source).columns := by
    obtain ⟨e, he⟩ := h.loads parent hmem
    obtain rfl : e = (s.relation id).source := Fin.ext (he.entity.symm.trans hsource)
    exact he.columns
  rcases Schema.place_eq_ok hr hsuits (hfit id) hcolumns (h.given parent hmem) hself hplace with
    ⟨joins, aliases, hj⟩ | ⟨hmany, hlimit, hbatch⟩
  · exact h.attach_joined hb ht hs hsuits hattaches hj
  · exact h.attach_batch hb hs hattaches hmany hlimit hbatch

/-- What the statements of a compilation select. -/
theorem Schema.Compiling.selects (h : s.Compiling r root hops d) :
    d.Selects s r db root ∧ d.Batches s r := by
  induction h with
  | start => exact ⟨.start hsuits, fun i b hb => by simp [Schema.rootDraft] at hb⟩
  | reuse _ _ ih => exact ih
  | attach h hmem hsource _ ha ih =>
    exact ih.1.attach hself hr hsuits hfit ih.2 h.rooted h.treeMatches h.sourced hmem hsource ha

end EagerLoad
