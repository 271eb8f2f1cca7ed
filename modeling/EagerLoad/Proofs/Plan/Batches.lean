import EagerLoad.Proofs.Plan.Selected
import EagerLoad.Proofs.Schema.Build

/-!
# How the batches of a plan are laid out

A batch is opened by one node, below a node of an earlier statement whose columns give the keys. All other
nodes are read from the statement of their parent. If that is a batch, the batch names the node from then
on, so a batch names the node that opened it only as long as nothing is joined into it.
-/

namespace EagerLoad

open Sql

variable {s : Schema} {r : Request} {root : s.EntityId} {hops : List s.RelationId} {d d' : Draft}
  {id : s.RelationId} {parent n : Node} {i : Nat} {b : Batch} {p : Plan}

namespace Draft

/-- What a batch of a draft to which a node is attached was before, if the node did not open it. It names
the node if that is read from it. -/
theorem batch_of_attach (ha : (s.hop r parent id).attach r d = .ok (n, d'))
    (hb : d'.batches[i]? = some b) : (n.source = .batch i → b.node = n.id) ∧
      ((n.strategy = .batched ∧ n.source = .batch i ∧ b.parentColumns = (s.relation id).join.left) ∨
        ∃ b₀, d.batches[i]? = some b₀ ∧ b.parentColumns = b₀.parentColumns ∧
          (n.source ≠ .batch i → b.node = b₀.node)) := by
  obtain ⟨a, hplace, hn, rfl⟩ := Hop.attach_eq_ok ha
  have hsource : n.source = a.source := hn ▸ rfl
  have hstrategy : n.strategy = a.strategy := hn ▸ rfl
  obtain ⟨b₀, hb₀, rfl⟩ := batch_of_entrust hb
  refine ⟨fun hi => if_pos hi, ?_⟩
  rcases (Hop.placed_of_place hplace).source with
    ⟨-, -, aliases, notes, change, hdraft⟩ | ⟨hopened, hbatched, -, aliases, batch, hdraft, -, hcolumns⟩
  · rw [hdraft] at hb₀
    cases hparent : (s.hop r parent id).parent.source with
    | primary =>
      rw [hparent] at hb₀
      exact .inr ⟨b₀, hb₀, rfl, fun hi => if_neg hi⟩
    | batch j =>
      rw [hparent] at hb₀
      simp only [Draft.modify, List.getElem?_modify, Option.map_eq_map, Option.map_eq_some_iff] at hb₀
      obtain ⟨b₁, hb₁, rfl⟩ := hb₀
      refine .inr ⟨b₁, hb₁, ?_, fun hi => ?_⟩
      · by_cases hji : j = i <;> simp [hji]
      · by_cases hji : j = i <;> simp [hji, hi]
  · rw [hdraft] at hb₀
    simp only [List.getElem?_append, List.getElem?_singleton] at hb₀
    split at hb₀
    · exact .inr ⟨b₀, hb₀, rfl, fun hi => if_neg hi⟩
    · split at hb₀
      · obtain rfl : i = d.batches.length := by omega
        obtain rfl := Option.some.inj hb₀
        exact .inl ⟨hstrategy.trans hbatched, hsource.trans hopened, hcolumns⟩
      · cases hb₀

/-- What opened the batches of a draft, and which nodes they name. -/
structure Opening (s : Schema) (d : Draft) : Prop where
  loads : ∀ n ∈ d.nodes, ∃ e, s.Loads n e
  /-- A batch is opened along a relation, and its keys are the columns that this joins. -/
  opener : ∀ (i : Nat) (b : Batch), d.batches[i]? = some b → ∃ n ∈ d.others, n.strategy = .batched ∧
    n.source = .batch i ∧ ∃ id : s.RelationId, n.relation = some id.val ∧
      b.parentColumns = (s.relation id).join.left
  /-- Of the nodes that are read from a batch, it names the one attached last. -/
  last : ∀ (i : Nat) (b : Batch), d.batches[i]? = some b → ∀ n ∈ d.others, n.source = .batch i →
    n.id ≤ b.node

/-- A node that is attached may open a batch, and is named by the batch that it is read from. -/
theorem Opening.attach (h : d.Opening s) (hd : d.Rooted s hops) (hmem : parent ∈ d.nodes)
    (hsource : parent.entity = (s.relation id).source)
    (ha : (s.hop r parent id).attach r d = .ok (n, d')) : d'.Opening s := by
  obtain ⟨hroot, hothers⟩ := Hop.nodes_of_attach ha
  obtain ⟨a, -, hn, -⟩ := Hop.attach_eq_ok ha
  have hid : n.id = d.others.length + 1 := (hd.hangsBelow hmem hsource ha).1
  have hmemOthers {k : Node} : k ∈ d'.others ↔ k ∈ d.others ∨ k = n := by
    rw [hothers, List.mem_append, List.mem_singleton]
  constructor
  case loads =>
    intro k hk
    rw [Draft.nodes, hroot, List.mem_cons, hmemOthers, ← or_assoc, ← List.mem_cons] at hk
    rcases hk with hk | rfl
    · exact h.loads k hk
    · exact ⟨(s.relation id).target, hn ▸ ⟨rfl, rfl, rfl⟩⟩
  case opener =>
    intro i b hb
    rcases (batch_of_attach ha hb).2 with ⟨hstrategy, hi, hcolumns⟩ | ⟨b₀, hb₀, hcolumns, -⟩
    · exact ⟨n, hmemOthers.mpr (.inr rfl), hstrategy, hi, id, hn ▸ rfl, hcolumns⟩
    · obtain ⟨k, hk, hstrategy, hi, id', hrelation, hcolumns₀⟩ := h.opener i b₀ hb₀
      exact ⟨k, hmemOthers.mpr (.inl hk), hstrategy, hi, id', hrelation, hcolumns.trans hcolumns₀⟩
  case last =>
    intro i b hb k hk hi
    obtain ⟨hnamed, hbefore⟩ := batch_of_attach ha hb
    rcases hmemOthers.mp hk with hk | rfl
    · by_cases hni : n.source = .batch i
      · have hlt := hd.id_lt (List.mem_cons_of_mem _ hk)
        rw [hnamed hni]
        omega
      · rcases hbefore with ⟨-, hni', -⟩ | ⟨b₀, hb₀, -, hnode⟩
        · exact absurd hni' hni
        · exact hnode hni ▸ h.last i b₀ hb₀ k hk hi
    · exact (hnamed hi).ge

end Draft

/-- In every draft that a compilation passes through, batches are opened and named in this way. -/
theorem Schema.Compiling.opening (h : s.Compiling r root hops d) : d.Opening s := by
  induction h with
  | start =>
    refine ⟨fun n hn => ?_, by simp [Schema.rootDraft], by simp [Schema.rootDraft]⟩
    obtain rfl := List.mem_singleton.mp hn
    exact ⟨root, rfl, rfl, rfl⟩
  | reuse _ _ ih => exact ih
  | attach h hmem hsource _ ha ih => exact ih.attach h.rooted hmem hsource ha

/-- A node opens a batch below another node: it is the only batched node that is read from the batch, the
statement of the other node comes before, and the keys of the batch are columns of the other node. -/
structure Plan.Opens (p : Plan) (i : Nat) (b : Batch) (m n : Node) : Prop where
  node : n ∈ p.others
  strategy : n.strategy = .batched
  source : n.source = .batch i
  only : ∀ k ∈ p.others, k.strategy = .batched → k.source = .batch i → k = n
  parent : m ∈ p.nodes ∧ n.parent = some m.id
  earlier : m.source.position ≤ i
  columns : b.parentColumns ⊆ m.columns

/-- How the statements of a plan are laid out. -/
structure Plan.LaidOut (p : Plan) : Prop where
  opened : ∀ (i : Nat) (b : Batch), p.batches[i]? = some b → ∃ m n, p.Opens i b m n
  batched : ∀ n ∈ p.others, n.strategy = .batched → ∃ i < p.batches.length, n.source = .batch i
  joined : ∀ n ∈ p.others, n.strategy ≠ .batched →
    ∃ m ∈ p.nodes, n.parent = some m.id ∧ n.source = m.source
  /-- A batch names, of the nodes that are read from it, the one attached last. -/
  named : ∀ (i : Nat) (b : Batch), p.batches[i]? = some b →
    ∃ n ∈ p.others, n.id = b.node ∧ n.source = .batch i ∧ ∀ k ∈ p.others, k.source = .batch i → k.id ≤ n.id
  multiplies : p.multipliesRows = true ↔
    ∃ n ∈ p.others, n.source = .primary ∧ (n.strategy = .boundedLateral ∨ n.strategy = .selfAliased)
  /-- Apart from these, the primary statement has only outer joins of tables. -/
  outer : p.multipliesRows = false ↔ ∀ join ∈ p.primary.joins, join.Outer

/-- The node that opened a batch, and the node below which it did. -/
theorem Schema.Compiling.opens (h : s.Compiling r root hops d) (hfit : ∀ id : s.RelationId,
    (s.relation id).join.left ⊆ (s.entity (s.relation id).source).columns)
    (hb : d.batches[i]? = some b) : ∃ m n, (d.plan s root).Opens i b m n := by
  have hopening := h.opening
  have hsourced := h.sourced
  obtain ⟨n, hn, hstrategy, hsource, id, hrelation, hcolumns⟩ := hopening.opener i b hb
  obtain ⟨m, hm, hparent, -, id', hrelation', hentity, -⟩ := h.rooted.below n hn
  obtain rfl : id = id' := Fin.ext (Option.some.inj (hrelation.symm.trans hrelation'))
  obtain ⟨e, he⟩ := hopening.loads m hm
  obtain rfl : e = (s.relation id).source := Fin.ext (he.entity.symm.trans hentity)
  refine ⟨m, n, hn, hstrategy, hsource, fun k hk hkstrategy hksource => ?_, ⟨hm, hparent⟩, ?_, ?_⟩
  · exact hsourced.owner k hk n hn hkstrategy hstrategy (hksource.trans hsource.symm)
  · obtain ⟨j, hj, hle⟩ := hsourced.opened n hn m hm hparent hstrategy
    cases hsource.symm.trans hj
    exact hle
  · rw [hcolumns, he.columns]
    exact hfit id

/-- A compiled plan is laid out in this way. -/
theorem Schema.compile_laidOut {entities : List Entity} {declarations : List Declaration}
    (hbuild : Schema.build entities declarations = .ok s) (h : s.compile r = .ok p) : p.LaidOut := by
  obtain ⟨root, d, -, hd, rfl⟩ := Schema.compile_eq_ok h
  have hsourced := hd.sourced
  constructor
  case opened => exact fun i b hb => hd.opens (fun id => (Schema.build_joinsFit hbuild id).left) hb
  case batched =>
    intro n hn hstrategy
    obtain ⟨m, hm, hparent, -⟩ := hd.rooted.below n hn
    obtain ⟨i, hi, -⟩ := hsourced.opened n hn m hm hparent hstrategy
    exact ⟨i, hsourced.lt_of_source (List.mem_cons_of_mem _ hn) hi, hi⟩
  case joined =>
    intro n hn hstrategy
    obtain ⟨m, hm, hparent, -⟩ := hd.rooted.below n hn
    exact ⟨m, hm, hparent, hsourced.joined n hn m hm hparent hstrategy⟩
  case named =>
    intro i b hb
    obtain ⟨n, hn, hid, hsource⟩ := hsourced.named i b hb
    exact ⟨n, hn, hid, hsource, fun k hk hksource => hid ▸ hd.opening.last i b hb k hk hksource⟩
  case multiplies =>
    rw [Draft.plan, hd.noted.multiplies]
    simp [Plan.multiplies]
  case outer =>
    rw [Draft.plan, hd.noted.multiplies]
    simpa using hd.projecting.outer

/-- Each batch is opened by a node of its own, and each node below the root loads an entity of its own. -/
theorem Schema.compile_length_batches_le (h : s.compile r = .ok p) :
    p.batches.length ≤ s.entities.length := by
  obtain ⟨root, d, -, hd, rfl⟩ := Schema.compile_eq_ok h
  have hbatches : d.batches.length ≤ d.others.length := by
    have hnodup : ((List.range d.batches.length).map RowSource.batch).Nodup :=
      List.nodup_range.map fun i j hij => RowSource.batch.inj hij
    have hsubset : (List.range d.batches.length).map RowSource.batch ⊆ d.others.map (·.source) := by
      intro source hsource
      obtain ⟨i, hi, rfl⟩ := List.mem_map.mp hsource
      have hb := List.getElem?_eq_getElem (List.mem_range.mp hi)
      obtain ⟨n, hn, -, hopened, -⟩ := hd.opening.opener i _ hb
      exact List.mem_map.mpr ⟨n, hn, hopened⟩
    simpa using (List.subperm_of_subset hnodup hsubset).length_le
  have hothers : d.others.length ≤ s.entities.length := by
    have hsubset : d.others.map (·.entity) ⊆ List.range s.entities.length := by
      intro e he
      obtain ⟨id, -, rfl⟩ := (hd.rooted.covered e).mp he
      exact List.mem_range.mpr (s.relation id).target.isLt
    simpa using (List.subperm_of_subset hd.rooted.distinct hsubset).length_le
  exact hbatches.trans hothers

/-- Every node of a compiled plan stands in its tree. -/
theorem Schema.compile_mem_tree (h : s.compile r = .ok p) (hn : n ∈ p.nodes) :
    ∃ t ∈ p.tree.subtrees, t.info = n := by
  obtain ⟨root, d, -, hd, rfl⟩ := Schema.compile_eq_ok h
  exact List.mem_map.mp (hd.treeMatches.nodes.mem_iff.mpr hn)

end EagerLoad
