import EagerLoad.Proofs.Hydration.Grouped

/-!
# Nested records are nested groups

What is read off an arena that holds the groups of some rows is what grouping makes of these rows.
-/

namespace EagerLoad

open Arena

variable {p : Plan} {answers : Nat → List Row} {a : Arena} {t : LoadTree} {feed : Feed} {id : Nat}
  {values : KeyMap Value}

theorem LoadTree.entriesJson_eq_map (ha : a.InStep) (q : Nat) (children : List LoadTree) :
    LoadTree.entriesJson a q children = children.map fun c =>
      (c.info.name, c.info.cardinality.entry
        ((a.entries c.info.id (some q)).map fun e => c.recordJson a e.2)) := by
  induction children with
  | nil => rfl
  | cons c rest ih =>
    rw [entriesJson, ih, List.map_cons]
    refine congrArg (· :: _) (congrArg (Prod.mk c.info.name) ?_)
    rw [ha.childrenOf_eq_map, List.map_map]
    cases c.info.cardinality with
    | one => cases a.entries c.info.id (some q) <;> rfl
    | many => rfl

namespace Plan

/-- The records of a node, one for each key of the rows. -/
theorem nest_node {n : Node} {children : List LoadTree} {rows : List Row} :
    p.nest answers (.node n children) rows = (n.keys rows).map fun key =>
      let own := n.rowsOf key rows
      .object ((n.firstValues own).entries.map (fun (column, value) => (column, value.toJson)) ++
        p.nestBelow answers n own children) :=
  List.map_map

theorem recordsOf_nil (t : LoadTree) : p.recordsOf answers id t [] = [] := by
  cases t
  rfl

/-- The records of a node are those that its groups make, and those of a node below it. -/
theorem mem_recordsOf {n : Node} {children : List LoadTree} {rows : List Row} :
    values ∈ p.recordsOf answers id (.node n children) rows ↔ ∃ key ∈ n.keys rows,
      (n.id = id ∧ values = n.firstValues (n.rowsOf key rows)) ∨
        ∃ c ∈ children, values ∈ p.recordsOf answers id c
          (p.rowsBelow answers n (n.rowsOf key rows) c.info) := by
  have hself (own : List Row) : values ∈ (if n.id = id then [n.firstValues own] else []) ↔
      n.id = id ∧ values = n.firstValues own := by
    split <;> simp [*]
  simp only [recordsOf, Node.groups, List.mem_flatMap, List.mem_append, mem_recordsBelow, hself,
    List.mem_map, exists_exists_and_eq_and]

end Plan

namespace Arena.Grouped

/-- The records of a node below a parent, as JSON, are the groups of the rows that belong there. -/
theorem nest_eq (hg : Grouped p answers a t feed) (parent : Option Nat) :
    p.nest answers t (feed parent) =
      (a.entries t.info.id parent).map fun e => t.recordJson a e.2 := by
  induction t using LoadTree.induction generalizing feed parent with
  | node n children ih =>
    have htop : a.GroupedAt n feed := hg.groupedAt
    rw [Plan.nest_node, ← htop.keys parent, List.map_map]
    apply List.map_congr_left
    rintro ⟨e, q⟩ he
    obtain ⟨he, hnode, hparent⟩ := mem_entries.mp he
    have hvalues := htop.values e (List.mem_of_getElem? he) hnode
    rw [hparent] at hvalues
    have hentries : p.nestBelow answers n (n.rowsOf e.key (feed parent)) children =
        LoadTree.entriesJson a q children := by
      rw [Plan.nestBelow_eq_map, LoadTree.entriesJson_eq_map htop.inStep]
      apply List.map_congr_left
      intro c hc
      have hloaded := ih c hc (hg.children hc) (some q)
      rw [LoadTree.info_node, feedBelow_of_record he hnode, hparent] at hloaded
      rw [hloaded]
    simp only [Function.comp, LoadTree.recordJson, record_of_log he, hentries, hvalues]

/-- The records of a node in the arena are those of its groups. -/
theorem mem_recordsOf (hg : Grouped p answers a t feed) :
    (∃ parent, values ∈ p.recordsOf answers id t (feed parent)) ↔
      id ∈ t.ids ∧ ∃ r ∈ a.records, r.node = id ∧ values = r.values := by
  induction t using LoadTree.induction generalizing feed with
  | node n children ih =>
    have htop : a.GroupedAt n feed := hg.groupedAt
    -- The groups of the node are its records.
    have hgroup {parent : Option Nat} {key : String} (hkey : key ∈ n.keys (feed parent)) :
        ∃ (e : KeyedRecord) (q : Nat), a.log[q]? = some e ∧ e.node = n.id ∧ e.parent = parent ∧
          e.key = key := by
      rw [← htop.keys parent] at hkey
      obtain ⟨⟨e, q⟩, he, rfl⟩ := List.mem_map.mp hkey
      obtain ⟨he, hnode, hparent⟩ := mem_entries.mp he
      exact ⟨e, q, he, hnode, hparent, rfl⟩
    have hkeyOf {e : KeyedRecord} {q : Nat} (he : a.log[q]? = some e) (hnode : e.node = n.id) :
        e.key ∈ n.keys (feed e.parent) := by
      rw [← htop.keys e.parent]
      exact List.mem_map_of_mem (mem_entries.mpr ⟨he, hnode, rfl⟩)
    have hchild {c : LoadTree} (hc : c ∈ children) := ih c hc
      (show Grouped p answers a c (a.feedBelow p answers n feed c.info) from hg.children hc)
    rw [LoadTree.ids_node]
    simp only [Plan.mem_recordsOf, List.mem_cons, List.mem_flatMap]
    constructor
    · rintro ⟨parent, key, hkey, h⟩
      obtain ⟨e, q, he, hnode, rfl, rfl⟩ := hgroup hkey
      rcases h with ⟨hid, hvalues⟩ | ⟨c, hc, hmem⟩
      · refine ⟨.inl hid.symm, e.toRecord, List.mem_of_getElem? (record_of_log he), hnode.trans hid, ?_⟩
        rw [hvalues, htop.values e (List.mem_of_getElem? he) hnode]
      · have hfeed : a.feedBelow p answers n feed c.info (some q) =
            p.rowsBelow answers n (n.rowsOf e.key (feed e.parent)) c.info :=
          feedBelow_of_record he hnode
        rw [← hfeed] at hmem
        obtain ⟨hid, hrecord⟩ := (hchild hc).mp ⟨_, hmem⟩
        exact ⟨.inr ⟨c, hc, hid⟩, hrecord⟩
    · rintro ⟨rfl | ⟨c, hc, hid⟩, r, hr, hnode, rfl⟩
      · obtain ⟨e, he, rfl⟩ := htop.inStep.mem_log hr
        obtain ⟨q, hq⟩ := List.getElem?_of_mem he
        exact ⟨e.parent, e.key, hkeyOf hq hnode, .inl ⟨rfl, htop.values e he hnode⟩⟩
      · obtain ⟨parent, hmem⟩ := (hchild hc).mpr ⟨hid, r, hr, hnode, rfl⟩
        have hnil : ¬ r.values ∈ p.recordsOf answers id c [] := by
          rw [Plan.recordsOf_nil]
          exact List.not_mem_nil
        cases parent with
        | none => exact absurd hmem hnil
        | some q =>
          by_cases hrecord : ∃ e, a.log[q]? = some e ∧ e.node = n.id
          · obtain ⟨e, he, hnode'⟩ := hrecord
            rw [feedBelow_of_record he hnode'] at hmem
            exact ⟨e.parent, e.key, hkeyOf he hnode', .inr ⟨c, hc, hmem⟩⟩
          · rw [feedBelow_of_not fun e he hnode => hrecord ⟨e, he, hnode⟩] at hmem
            exact absurd hmem hnil

/-- Where nothing belongs to a tree outside a record, every record of its nodes has a parent. -/
theorem parent_ne_none (hg : Grouped p answers a t feed) (hnone : feed none = [])
    {e : KeyedRecord} (he : e ∈ a.log) (hid : e.node ∈ t.ids) : e.parent ≠ none := by
  induction hg with
  | @node n children feed htop _ ih =>
    rw [LoadTree.ids_node, List.mem_cons, List.mem_flatMap] at hid
    rcases hid with hnode | ⟨c, hc, hid⟩
    · intro hparent
      obtain ⟨q, hq⟩ := List.getElem?_of_mem he
      have hkeys := htop.keys none
      rw [hnone, Node.keys_nil, List.map_eq_nil_iff] at hkeys
      have hmem := mem_entries.mpr ⟨hq, hnode, hparent⟩
      rw [hkeys] at hmem
      exact List.not_mem_nil hmem
    · exact ih c hc rfl hid

end Arena.Grouped

/-- The rows of the primary statement belong to the root. -/
def Feed.ofPrimary (rows : List Row) : Feed
  | none => rows
  | some _ => []

/-- Where the arena holds the groups of the rows, the result of hydration is their nested grouping. -/
theorem Plan.finish_eq_nest {rows : List Row}
    (hg : Grouped p answers a p.tree (.ofPrimary rows)) (hnodes : ∀ r ∈ a.records, r.node ∈ p.tree.ids) :
    p.finish a = p.nest answers p.tree rows := by
  have hroots : a.roots = (a.entries p.tree.info.id none).map (·.2) := by
    rw [hg.groupedAt.inStep.roots, positions, entries]
    congr 1
    apply List.filter_congr
    intro e he
    have hr : e.1 ∈ a.log := List.fst_mem_of_mem_zipIdx he
    have hid := hnodes _ (mem_records_of_log hr)
    cases hp : e.1.parent with
    | some q => simp
    | none =>
      have hnode : e.1.node = p.tree.info.id := by
        generalize p.tree = t at hg hid
        cases t with
        | node n children =>
          rw [LoadTree.ids_node, List.mem_cons, List.mem_flatMap] at hid
          rcases hid with hid | ⟨c, hc, hid⟩
          · exact hid
          · exact absurd hp (Grouped.parent_ne_none (hg.children hc) rfl hr hid)
      simp [hnode]
  rw [Plan.finish, hroots, List.map_map]
  exact (hg.nest_eq none).symm

/-- The records of a node in the arena are those of the nested grouping. -/
theorem Plan.mem_recordsOf_tree {rows : List Row} (hg : Grouped p answers a p.tree (.ofPrimary rows)) :
    values ∈ p.recordsOf answers id p.tree rows ↔
      id ∈ p.tree.ids ∧ ∃ r ∈ a.records, r.node = id ∧ values = r.values := by
  rw [← hg.mem_recordsOf]
  constructor
  · exact fun h => ⟨none, h⟩
  · rintro ⟨parent, h⟩
    cases parent with
    | none => exact h
    | some q =>
      rw [Feed.ofPrimary, Plan.recordsOf_nil] at h
      exact absurd h List.not_mem_nil

end EagerLoad
