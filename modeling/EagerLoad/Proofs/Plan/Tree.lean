import EagerLoad.Plan.Tree
import Mathlib.Data.List.Nodup

/-!
# Trees of nodes

The subtrees of a load tree, and what attaching a node does to them: every subtree gets the node at the
same place, and each subtree whose top is the node's parent gets it as its last child.
-/

namespace EagerLoad.LoadTree

/-- A statement about trees holds if it passes from the children of a tree to the tree. -/
@[elab_as_elim]
theorem induction {motive : LoadTree → Prop}
    (node : ∀ n children, (∀ t ∈ children, motive t) → motive (.node n children)) :
    ∀ t, motive t
  | .node n children => node n children fun t _ => induction node t

mutual

/-- The tree and every tree below it, each before those below it. -/
def subtrees : LoadTree → List LoadTree
  | .node n children => .node n children :: subtreesBelow children

/-- The subtrees of several trees. -/
def subtreesBelow : List LoadTree → List LoadTree
  | [] => []
  | tree :: rest => tree.subtrees ++ subtreesBelow rest

end

/-- The nodes of a tree, each before those below it. -/
def nodes (t : LoadTree) : List Node :=
  t.subtrees.map info

/-- The numbers of the nodes of a tree. -/
def ids (t : LoadTree) : List Nat :=
  t.nodes.map (·.id)

theorem subtreesBelow_eq_flatMap (trees : List LoadTree) :
    subtreesBelow trees = trees.flatMap subtrees := by
  induction trees with
  | nil => rfl
  | cons t rest ih => rw [subtreesBelow, ih, List.flatMap_cons]

theorem attachBelow_eq_map (n : Node) (trees : List LoadTree) :
    attachBelow n trees = trees.map (attach n) := by
  induction trees with
  | nil => rfl
  | cons t rest ih => rw [attachBelow, ih, List.map_cons]

@[simp] theorem info_node (n : Node) (children : List LoadTree) : (node n children).info = n := rfl

@[simp] theorem children_node (n : Node) (children : List LoadTree) :
    (node n children).children = children := rfl

/-- A subtree is the tree itself or a subtree of one of its children. -/
theorem mem_subtrees_node {n : Node} {children : List LoadTree} {u : LoadTree} :
    u ∈ (node n children).subtrees ↔ u = node n children ∨ ∃ c ∈ children, u ∈ c.subtrees := by
  rw [subtrees, List.mem_cons, subtreesBelow_eq_flatMap, List.mem_flatMap]

@[simp] theorem mem_subtrees_self (t : LoadTree) : t ∈ t.subtrees := by
  cases t
  exact List.mem_cons_self

/-- Children are subtrees. -/
theorem mem_subtrees_of_mem_children {t c : LoadTree} (h : c ∈ t.children) : c ∈ t.subtrees := by
  cases t
  exact mem_subtrees_node.mpr (.inr ⟨c, h, mem_subtrees_self c⟩)

/-- Subtrees of a subtree are subtrees. -/
theorem subtrees_trans {t u v : LoadTree} (hu : u ∈ t.subtrees) (hv : v ∈ u.subtrees) :
    v ∈ t.subtrees := by
  induction t using induction with
  | node n children ih =>
    rcases mem_subtrees_node.mp hu with rfl | ⟨c, hc, hcu⟩
    · exact hv
    · exact mem_subtrees_node.mpr (.inr ⟨c, hc, ih c hc hcu⟩)

/-- The node of a subtree is a node of the tree. -/
theorem info_mem_nodes {t u : LoadTree} (hu : u ∈ t.subtrees) : u.info ∈ t.nodes :=
  List.mem_map_of_mem hu

/-- The nodes of a subtree are nodes of the tree. -/
theorem nodes_subset {t u : LoadTree} (hu : u ∈ t.subtrees) : u.nodes ⊆ t.nodes := by
  intro m hm
  obtain ⟨v, hv, rfl⟩ := List.mem_map.mp hm
  exact info_mem_nodes (subtrees_trans hu hv)

theorem nodes_node (n : Node) (children : List LoadTree) :
    (node n children).nodes = n :: children.flatMap nodes := by
  rw [nodes, subtrees, List.map_cons, subtreesBelow_eq_flatMap, List.map_flatMap]
  rfl

theorem ids_node (n : Node) (children : List LoadTree) :
    (node n children).ids = n.id :: children.flatMap ids := by
  rw [ids, nodes_node, List.map_cons, List.map_flatMap]
  rfl

@[simp] theorem info_attach (n : Node) (t : LoadTree) : (t.attach n).info = t.info := by
  cases t
  rfl

/-- Attaching a node reaches every child, and adds the node after them if it belongs there. -/
theorem children_attach (n : Node) (t : LoadTree) :
    (t.attach n).children =
      t.children.map (attach n) ++ if n.parent = some t.info.id then [node n []] else [] := by
  cases t
  rw [attach, attachBelow_eq_map]
  rfl

theorem attach_node (n m : Node) (children : List LoadTree) :
    (node m children).attach n =
      node m (children.map (attach n) ++ if n.parent = some m.id then [node n []] else []) := by
  rw [attach, attachBelow_eq_map]

/-- The subtrees after a node is attached: those that were there, with the node attached, and the node
itself below its parent. -/
theorem mem_subtrees_attach {n : Node} {t v : LoadTree} :
    v ∈ (t.attach n).subtrees ↔ (∃ u ∈ t.subtrees, v = u.attach n) ∨
      (v = node n [] ∧ ∃ u ∈ t.subtrees, n.parent = some u.info.id) := by
  induction t using induction with
  | node m children ih =>
    have hleaf : v ∈ (node n []).subtrees ↔ v = node n [] := by
      simp [mem_subtrees_node]
    simp only [attach_node, mem_subtrees_node, List.mem_append, List.mem_map]
    constructor
    · rintro (rfl | ⟨c, ⟨d, hd, rfl⟩ | hc, hv⟩)
      · exact .inl ⟨_, .inl rfl, (attach_node n m children).symm⟩
      · rcases (ih d hd).mp hv with ⟨u, hu, rfl⟩ | ⟨rfl, u, hu, hp⟩
        · exact .inl ⟨u, .inr ⟨d, hd, hu⟩, rfl⟩
        · exact .inr ⟨rfl, u, .inr ⟨d, hd, hu⟩, hp⟩
      · split at hc
        · rename_i hp
          obtain rfl := List.mem_singleton.mp hc
          exact .inr ⟨hleaf.mp hv, _, .inl rfl, hp⟩
        · exact absurd hc List.not_mem_nil
    · rintro (⟨u, rfl | ⟨d, hd, hu⟩, rfl⟩ | ⟨rfl, u, rfl | ⟨d, hd, hu⟩, hp⟩)
      · exact .inl (attach_node n m children)
      · exact .inr ⟨d.attach n, .inl ⟨d, hd, rfl⟩, (ih d hd).mpr (.inl ⟨u, hu, rfl⟩)⟩
      · refine .inr ⟨node n [], .inr ?_, hleaf.mpr rfl⟩
        rw [if_pos (by simpa using hp)]
        exact List.mem_singleton_self _
      · exact .inr ⟨d.attach n, .inl ⟨d, hd, rfl⟩, (ih d hd).mpr (.inr ⟨rfl, u, hu, hp⟩)⟩

/-- The nodes after a node is attached: it is there once more for each node that is its parent. -/
theorem nodes_attach_perm (n : Node) (t : LoadTree) :
    (t.attach n).nodes.Perm
      (t.nodes ++ (t.nodes.filter fun m => n.parent = some m.id).map fun _ => n) := by
  induction t using induction with
  | node m children ih =>
    have hbelow : ∀ trees ⊆ children,
        ((trees.map (attach n)).flatMap nodes).Perm (trees.flatMap nodes ++
          ((trees.flatMap nodes).filter fun m => n.parent = some m.id).map fun _ => n) := by
      intro trees hsub
      induction trees with
      | nil => simp
      | cons c rest ihrest =>
        obtain ⟨hc, hrest⟩ := List.cons_subset.mp hsub
        simp only [List.map_cons, List.flatMap_cons, List.filter_append, List.map_append,
          List.append_assoc]
        refine ((ih c hc).append (ihrest hrest)).trans ?_
        simp only [List.append_assoc]
        apply List.Perm.append_left
        rw [← List.append_assoc, ← List.append_assoc]
        exact List.perm_append_comm.append_right _
    rw [attach_node, nodes_node, nodes_node, List.flatMap_append, List.filter_cons]
    apply List.Perm.cons
    by_cases hp : n.parent = some m.id
    · simp only [hp, if_true, decide_true, List.map_cons]
      refine ((hbelow children (List.Subset.refl _)).append_right _).trans ?_
      simp only [hp]
      rw [List.append_assoc]
      apply List.Perm.append_left
      exact List.perm_append_comm
    · simpa [hp] using hbelow children (List.Subset.refl _)

theorem ids_eq_map_subtrees (t : LoadTree) : t.ids = t.subtrees.map (·.info.id) := by
  rw [ids, nodes, List.map_map]
  rfl

/-- A tree is told by the number of its node. -/
theorem eq_of_id_eq {t u v : LoadTree} (h : t.ids.Nodup) (hu : u ∈ t.subtrees) (hv : v ∈ t.subtrees)
    (hid : u.info.id = v.info.id) : u = v := by
  rw [ids_eq_map_subtrees] at h
  exact List.inj_on_of_nodup_map h hu hv hid

/-- Numbers of a subtree are distinct if those of the tree are. -/
theorem ids_nodup_of_mem_subtrees {t u : LoadTree} (h : t.ids.Nodup) (hu : u ∈ t.subtrees) :
    u.ids.Nodup := by
  induction t using induction with
  | node n children ih =>
    rcases mem_subtrees_node.mp hu with rfl | ⟨c, hc, hcu⟩
    · exact h
    · rw [ids_node] at h
      exact ih c hc ((List.nodup_flatMap.mp h.of_cons).1 c hc) hcu

/-- The numbers of a subtree are numbers of the tree. -/
theorem ids_subset {t u : LoadTree} (hu : u ∈ t.subtrees) : u.ids ⊆ t.ids :=
  List.map_subset _ (nodes_subset hu)

theorem id_mem_ids (t : LoadTree) : t.info.id ∈ t.ids := by
  rw [ids_eq_map_subtrees]
  exact List.mem_map_of_mem (mem_subtrees_self t)

/-- The number of a tree does not occur below it. -/
theorem id_not_mem_ids_of_mem_children {t c : LoadTree} (h : t.ids.Nodup) (hc : c ∈ t.children) :
    t.info.id ∉ c.ids := by
  cases t with
  | node n children =>
    rw [ids_node, List.nodup_cons] at h
    exact fun hid => h.1 (List.mem_flatMap.mpr ⟨c, hc, hid⟩)

/-- A subtree is the whole tree or a child of a subtree. -/
theorem eq_or_mem_children {t c : LoadTree} (h : c ∈ t.subtrees) :
    c = t ∨ ∃ v ∈ t.subtrees, c ∈ v.children := by
  induction t using induction with
  | node n children ih =>
    rcases mem_subtrees_node.mp h with rfl | ⟨e, he, hc⟩
    · exact .inl rfl
    · rcases ih e he hc with rfl | ⟨v, hv, hcv⟩
      · exact .inr ⟨_, mem_subtrees_self _, he⟩
      · exact .inr ⟨v, mem_subtrees_node.mpr (.inr ⟨e, he, hv⟩), hcv⟩

theorem findBelow?_eq_findSome? (id : Nat) (trees : List LoadTree) :
    findBelow? id trees = trees.findSome? (find? id) := by
  induction trees with
  | nil => rfl
  | cons t rest ih =>
    rw [findBelow?, ih, List.findSome?_cons]
    cases t.find? id <;> rfl

/-- A subtree found by number is a subtree of that number. -/
theorem find?_eq_some {t u : LoadTree} {id : Nat} (h : t.find? id = some u) :
    u ∈ t.subtrees ∧ u.info.id = id := by
  induction t using induction with
  | node n children ih =>
    rw [find?] at h
    split at h
    · rename_i hid
      cases h
      exact ⟨mem_subtrees_self _, hid⟩
    · rw [findBelow?_eq_findSome?] at h
      obtain ⟨c, hc, hcu⟩ := List.exists_of_findSome?_eq_some h
      obtain ⟨hu, hid⟩ := ih c hc hcu
      exact ⟨mem_subtrees_node.mpr (.inr ⟨c, hc, hu⟩), hid⟩

/-- A subtree is found if its number occurs. -/
theorem find?_isSome {t : LoadTree} {id : Nat} (h : id ∈ t.ids) : (t.find? id).isSome := by
  induction t using induction with
  | node n children ih =>
    rw [find?]
    split
    · rfl
    · rename_i hid
      rw [ids_node, List.mem_cons, List.mem_flatMap] at h
      rcases h with rfl | ⟨c, hc, hcid⟩
      · exact absurd rfl hid
      · rw [findBelow?_eq_findSome?, List.findSome?_isSome_iff]
        exact ⟨c, hc, ih c hc hcid⟩

/-- Where numbers are distinct, every subtree is found by its own. -/
theorem find?_id {t u : LoadTree} (h : t.ids.Nodup) (hu : u ∈ t.subtrees) :
    t.find? u.info.id = some u := by
  obtain ⟨v, hv⟩ := Option.isSome_iff_exists.mp (find?_isSome (ids_subset hu (id_mem_ids u)))
  obtain ⟨hvt, hid⟩ := find?_eq_some hv
  rw [hv, eq_of_id_eq h hvt hu hid]

end EagerLoad.LoadTree
