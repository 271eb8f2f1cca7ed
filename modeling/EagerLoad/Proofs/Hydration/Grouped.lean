import EagerLoad.Proofs.Hydration.Records

/-!
# Arenas that hold the groups of rows

The invariant of hydration: for each node and each parent, the arena holds one record for each key of the
rows that belong there, in the order in which keys are first seen. Which rows belong to a node below a
record follows from those of the record, so the invariant is stated by recursion over the tree.
-/

namespace EagerLoad

/-- The rows that belong to a node, for each parent. -/
abbrev Feed := Option Nat → List Row

/-- One more row for some parents. -/
def Feed.add (feed : Feed) (parents : List (Option Nat)) (row : Row) : Feed := fun parent =>
  feed parent ++ if parent ∈ parents then [row] else []

namespace Arena

/-- The records of a node are the groups of its rows. -/
structure GroupedAt (a : Arena) (n : Node) (feed : Feed) : Prop where
  inStep : a.InStep
  keys : ∀ parent, (a.entries n.id parent).map (·.1.key) = n.keys (feed parent)
  values : ∀ e ∈ a.log, e.node = n.id → e.values = n.firstValues (n.rowsOf e.key (feed e.parent))

/-- The rows that belong to a child of a node, for each record of the node. -/
def feedBelow (p : Plan) (answers : Nat → List Row) (a : Arena) (n : Node) (feed : Feed)
    (child : Node) : Feed
  | none => []
  | some q => match a.log[q]? with
    | some e =>
      if e.node = n.id then p.rowsBelow answers n (n.rowsOf e.key (feed e.parent)) child else []
    | none => []

/-- The records of every node of a tree are the groups of its rows. -/
inductive Grouped (p : Plan) (answers : Nat → List Row) (a : Arena) : LoadTree → Feed → Prop
  | node {n : Node} {children : List LoadTree} {feed : Feed} : a.GroupedAt n feed →
    (∀ c ∈ children, Grouped p answers a c (a.feedBelow p answers n feed c.info)) →
    Grouped p answers a (.node n children) feed

variable {p : Plan} {answers answers' : Nat → List Row} {a a' : Arena} {n child : Node} {feed : Feed}
  {t : LoadTree} {row : Row} {q : Nat} {e : KeyedRecord} {parent : Option Nat}

theorem Grouped.groupedAt (h : Grouped p answers a t feed) : a.GroupedAt t.info feed := by
  cases h with
  | node htop _ => exact htop

theorem Grouped.children (h : Grouped p answers a t feed) {c : LoadTree} (hc : c ∈ t.children) :
    Grouped p answers a c (a.feedBelow p answers t.info feed c.info) := by
  cases h with
  | node _ hbelow => exact hbelow c hc

/-- What belongs to a child of a record of the node. -/
theorem feedBelow_of_record (he : a.log[q]? = some e) (hnode : e.node = n.id) :
    a.feedBelow p answers n feed child (some q) =
      p.rowsBelow answers n (n.rowsOf e.key (feed e.parent)) child := by
  simp only [feedBelow, he, if_pos hnode]

/-- Nothing belongs to a child of what is no record of the node. -/
theorem feedBelow_of_not (h : ∀ e, a.log[q]? = some e → e.node ≠ n.id) :
    a.feedBelow p answers n feed child (some q) = [] := by
  simp only [feedBelow]
  split
  · rename_i e he
    exact if_neg (h e he)
  · rfl

/-- Records of other nodes do not matter to what belongs to a child. -/
theorem Extends.feedBelow_eq {kind : Nat → Prop} (h : a.Extends a' kind) (ha : a.InStep)
    (hkind : ¬ kind n.id) :
    a'.feedBelow p answers n feed child = a.feedBelow p answers n feed child := by
  funext parent
  cases parent with
  | none => rfl
  | some q =>
    by_cases hrecord : ∃ e, a.log[q]? = some e ∧ e.node = n.id
    · obtain ⟨e, he, hnode⟩ := hrecord
      rw [feedBelow_of_record he hnode, feedBelow_of_record (h.log_getElem? ha he) hnode]
    · have hnone : ∀ e, a.log[q]? = some e → e.node ≠ n.id :=
        fun e he hnode => hrecord ⟨e, he, hnode⟩
      rw [feedBelow_of_not hnone, feedBelow_of_not]
      intro e he hnode
      exact hnone e (h.log_of_not ha he (hnode ▸ hkind)) hnode

/-- Records of other nodes do not matter to the groups of a node. -/
theorem Extends.groupedAt {kind : Nat → Prop} (h : a.Extends a' kind) (hkind : ¬ kind n.id)
    (hg : a.GroupedAt n feed) : a'.GroupedAt n feed := by
  constructor
  case inStep => exact h.inStep hg.inStep
  case keys =>
    intro parent
    rw [h.entries_eq hg.inStep hkind, hg.keys]
  case values =>
    intro e he hnode
    obtain ⟨q, hq⟩ := List.getElem?_of_mem he
    exact hg.values e (List.mem_of_getElem? (h.log_of_not hg.inStep hq (hnode ▸ hkind))) hnode

/-- Records of other nodes do not matter to the groups of a tree. -/
theorem Extends.grouped {kind : Nat → Prop} (h : a.Extends a' kind) (hkind : ∀ id ∈ t.ids, ¬ kind id)
    (hg : Grouped p answers a t feed) : Grouped p answers a' t feed := by
  induction hg with
  | @node n children feed htop _ ih =>
    have hn : ¬ kind n.id := hkind _ (LoadTree.id_mem_ids _)
    refine .node (h.groupedAt hn htop) fun c hc => ?_
    rw [h.feedBelow_eq htop.inStep hn]
    refine ih c hc fun id hid => hkind id ?_
    exact LoadTree.ids_subset (LoadTree.mem_subtrees_of_mem_children hc) hid

/-- Only the batch that a child opens matters to what belongs to it. -/
theorem feedBelow_congr
    (h : child.source ≠ n.source → ∀ i, child.source = .batch i → answers i = answers' i) :
    a.feedBelow p answers' n feed child = a.feedBelow p answers n feed child := by
  funext parent
  cases parent with
  | none => rfl
  | some q =>
    by_cases hrecord : ∃ e, a.log[q]? = some e ∧ e.node = n.id
    · obtain ⟨e, he, hnode⟩ := hrecord
      rw [feedBelow_of_record he hnode, feedBelow_of_record he hnode]
      by_cases hsource : child.source = n.source
      · rw [Plan.rowsBelow_of_eq hsource, Plan.rowsBelow_of_eq hsource]
      · exact (Plan.rowsBelow_congr hsource rfl (h hsource)).symm
    · have hnone : ∀ e, a.log[q]? = some e → e.node ≠ n.id :=
        fun e he hnode => hrecord ⟨e, he, hnode⟩
      rw [feedBelow_of_not hnone, feedBelow_of_not hnone]

/-- Only the batches that are opened in a tree matter to its groups. -/
theorem Grouped.congr (hg : Grouped p answers a t feed)
    (h : ∀ u ∈ t.subtrees, ∀ c ∈ u.children, c.info.source ≠ u.info.source →
      ∀ i, c.info.source = .batch i → answers i = answers' i) : Grouped p answers' a t feed := by
  induction hg with
  | @node n children feed htop _ ih =>
    refine .node htop fun c hc => ?_
    have hfeed : a.feedBelow p answers' n feed c.info = a.feedBelow p answers n feed c.info :=
      feedBelow_congr (h _ (LoadTree.mem_subtrees_self _) c hc)
    rw [hfeed]
    refine ih c hc fun u hu => h u ?_
    exact LoadTree.mem_subtrees_node.mpr (.inr ⟨c, hc, hu⟩)

/-- Among the records of a node below a parent, a key occurs once. -/
theorem GroupedAt.eq_of_key_eq (hg : a.GroupedAt n feed) {e' : KeyedRecord} {q' : Nat}
    (he : (e, q) ∈ a.entries n.id parent) (he' : (e', q') ∈ a.entries n.id parent)
    (hkey : e.key = e'.key) : q = q' := by
  have hnodup : ((a.entries n.id parent).map (·.1.key)).Nodup :=
    hg.keys parent ▸ nodup_eraseDups _
  exact congrArg (·.2) (List.inj_on_of_nodup_map hnodup he he' hkey)

/-- A record has rows. -/
theorem GroupedAt.rowsOf_ne_nil (hg : a.GroupedAt n feed) (he : (e, q) ∈ a.entries n.id parent) :
    n.rowsOf e.key (feed parent) ≠ [] := by
  intro hnil
  rw [Node.rowsOf_eq_nil, ← hg.keys parent] at hnil
  exact hnil (List.mem_map_of_mem he)

end Arena

end EagerLoad
