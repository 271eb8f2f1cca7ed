import EagerLoad.Proofs.Names
import EagerLoad.Proofs.Plan.Compilation
import EagerLoad.Proofs.Plan.Tree
import Mathlib.Computability.Primrec.List
import Mathlib.Data.List.Permutation

/-!
# Plans are trees over the schema

Every node of a compiled plan but the root hangs below one node, which loads the source of its relation.
No entity is loaded twice below the root, and what is loaded there are the targets of the hops on the
paths to the requested relations, no more and no less. The tree that hydration recurses on holds the
same nodes. Requests are compiled on a fixed schema by the equations of `List.lookup` and `Prod.snd`, which
stand in the imported modules of Mathlib.
-/

namespace EagerLoad

/-- Where values of a function are distinct, an element is the only one of its value. -/
theorem filter_eq_singleton {α : Type} {f : α → Nat} {l : List α} {a : α} (h : (l.map f).Nodup)
    (ha : a ∈ l) : l.filter (fun b => f b = f a) = [a] := by
  induction l with
  | nil => exact absurd ha List.not_mem_nil
  | cons b rest ih =>
    obtain ⟨hb, hrest⟩ := List.nodup_cons.mp h
    rcases List.mem_cons.mp ha with rfl | ha
    · have hnone : rest.filter (fun c => f c = f a) = [] := by
        refine List.filter_eq_nil_iff.mpr fun c hc heq => hb ?_
        exact of_decide_eq_true heq ▸ List.mem_map_of_mem hc
      simp [hnone]
    · have hne : f b ≠ f a := fun heq => hb (heq ▸ List.mem_map_of_mem ha)
      simpa [hne] using ih hrest ha

/-- A node hangs below a node that is attached earlier and loads the source of its relation. -/
def Schema.HangsBelow (s : Schema) (n m : Node) : Prop :=
  n.parent = some m.id ∧ m.id < n.id ∧
    ∃ id : s.RelationId, n.relation = some id.val ∧ m.entity = (s.relation id).source ∧
      n.entity = (s.relation id).target ∧ n.name = (s.relation id).name ∧
      n.cardinality = (s.relation id).cardinality

/-- The nodes of a draft after some hops are walked. -/
structure Draft.Rooted (s : Schema) (hops : List s.RelationId) (d : Draft) : Prop where
  /-- Nodes are numbered in order. -/
  ids : d.nodes.map (·.id) = List.range d.nodes.length
  below : ∀ n ∈ d.others, ∃ m ∈ d.nodes, s.HangsBelow n m
  /-- No entity is loaded twice below the root. -/
  distinct : (d.others.map (·.entity)).Nodup
  covered : ∀ e, e ∈ d.others.map (·.entity) ↔ ∃ id ∈ hops, (s.relation id).target.val = e

namespace Draft

/-- The nodes of a draft as a tree. -/
def tree (d : Draft) : LoadTree :=
  d.others.foldl (fun tree n => tree.attach n) (.node d.root [])

/-- The tree of a draft holds its nodes, and below every node those whose parent it is. -/
structure TreeMatches (d : Draft) : Prop where
  nodes : d.tree.nodes.Perm d.nodes
  children : ∀ t ∈ d.tree.subtrees,
    t.children.map (·.info) = d.others.filter fun n => n.parent = some t.info.id

end Draft

variable {s : Schema} {r : Request} {root : s.EntityId} {hops : List s.RelationId} {d d' : Draft}
  {id : s.RelationId} {parent n : Node} {p : Plan}

/-- Every number of a node in shape is below the number of nodes. -/
theorem Draft.Rooted.id_lt (hd : d.Rooted s hops) {m : Node} (hm : m ∈ d.nodes) :
    m.id < d.others.length + 1 := by
  have hmem : m.id ∈ d.nodes.map (·.id) := List.mem_map_of_mem hm
  rw [hd.ids, List.mem_range] at hmem
  simpa [Draft.nodes] using hmem

/-- A node that is attached hangs below its parent. -/
theorem Draft.Rooted.hangsBelow (hd : d.Rooted s hops) (hmem : parent ∈ d.nodes)
    (hsource : parent.entity = (s.relation id).source)
    (ha : (s.hop r parent id).attach r d = .ok (n, d')) :
    n.id = d.others.length + 1 ∧ n.entity = (s.relation id).target ∧ s.HangsBelow n parent := by
  obtain ⟨a, -, rfl, -⟩ := Hop.attach_eq_ok ha
  exact ⟨rfl, rfl, rfl, hd.id_lt hmem, id, rfl, hsource, rfl, rfl, rfl⟩

/-- Attaching a hop keeps the nodes in shape. -/
theorem Draft.Rooted.attach (hd : d.Rooted s hops) (hmem : parent ∈ d.nodes)
    (hsource : parent.entity = (s.relation id).source)
    (hnew : (s.relation id).target.val ∉ d.others.map (·.entity))
    (ha : (s.hop r parent id).attach r d = .ok (n, d')) : d'.Rooted s (hops ++ [id]) := by
  obtain ⟨hid, hentity, hbelow⟩ := hd.hangsBelow hmem hsource ha
  obtain ⟨hroot, hothers⟩ := Hop.nodes_of_attach ha
  have hnodes : d'.nodes = d.nodes ++ [n] := by simp [Draft.nodes, hroot, hothers]
  have hfresh : n.entity ∉ d.others.map (·.entity) := hentity ▸ hnew
  constructor
  case ids =>
    rw [hnodes, List.map_append, hd.ids, List.length_append, List.length_singleton, List.range_succ]
    simp [hid, Draft.nodes]
  case below =>
    intro m hm
    rw [hothers, List.mem_append, List.mem_singleton] at hm
    rcases hm with hm | rfl
    · obtain ⟨q, hq, hqm⟩ := hd.below m hm
      exact ⟨q, hnodes ▸ List.mem_append_left _ hq, hqm⟩
    · exact ⟨parent, hnodes ▸ List.mem_append_left _ hmem, hbelow⟩
  case distinct =>
    rw [hothers, List.map_append]
    refine List.nodup_append'.mpr ⟨hd.distinct, by simp, ?_⟩
    simpa [List.disjoint_singleton] using hfresh
  case covered =>
    intro e
    rw [hothers, List.map_append, List.mem_append, hd.covered]
    simp only [List.map_cons, List.map_nil, List.mem_singleton, List.mem_append, hentity]
    constructor
    · rintro (⟨id', hid', rfl⟩ | rfl)
      · exact ⟨id', .inl hid', rfl⟩
      · exact ⟨id, .inr rfl, rfl⟩
    · rintro ⟨id', hid' | rfl, rfl⟩
      · exact .inl ⟨id', hid', rfl⟩
      · exact .inr rfl

/-- Every draft that a compilation passes through is in shape. -/
theorem Schema.Compiling.rooted (h : s.Compiling r root hops d) : d.Rooted s hops := by
  induction h with
  | start =>
    exact ⟨rfl, by simp [Schema.rootDraft], by simp [Schema.rootDraft], by simp [Schema.rootDraft]⟩
  | @reuse hops d id m h hm ih =>
    refine ⟨ih.ids, ih.below, ih.distinct, fun e => ?_⟩
    rw [ih.covered]
    refine ⟨fun ⟨id', hid', he⟩ => ⟨id', List.mem_append_left _ hid', he⟩, ?_⟩
    rintro ⟨id', hid', rfl⟩
    rcases List.mem_append.mp hid' with hid' | hid'
    · exact ⟨id', hid', rfl⟩
    · obtain rfl := List.mem_singleton.mp hid'
      exact (ih.covered _).mp (List.mem_map.mpr ⟨m, h.noted.of_loading? hm⟩)
  | attach h hmem hsource hnew ha ih =>
    exact ih.attach hmem hsource (h.noted.loading?_eq_none.mp hnew) ha

/-- Numbers in the tree are those of the nodes, so they are distinct. -/
theorem Draft.TreeMatches.ids_nodup (ht : d.TreeMatches) (hd : d.Rooted s hops) :
    d.tree.ids.Nodup := by
  have hperm := ht.nodes.map (·.id)
  rw [hd.ids] at hperm
  exact hperm.nodup_iff.mpr List.nodup_range

/-- The tree of a draft after a node is attached. -/
theorem Draft.tree_attach (ha : (s.hop r parent id).attach r d = .ok (n, d')) :
    d'.tree = d.tree.attach n := by
  obtain ⟨hroot, hothers⟩ := Hop.nodes_of_attach ha
  rw [Draft.tree, hroot, hothers, List.foldl_append]
  rfl

/-- Nothing hangs below a node that is just attached. -/
theorem Draft.Rooted.parent_ne (hd : d.Rooted s hops) (hmem : parent ∈ d.nodes)
    (hsource : parent.entity = (s.relation id).source)
    (ha : (s.hop r parent id).attach r d = .ok (n, d')) : ∀ m ∈ d.others ++ [n], m.parent ≠ some n.id := by
  obtain ⟨hid, -, hparent, hlt, -⟩ := hd.hangsBelow hmem hsource ha
  intro m hm
  rcases List.mem_append.mp hm with hm | hm
  · obtain ⟨q, hq, hqm, -⟩ := hd.below m hm
    have hlt := hd.id_lt hq
    rw [hqm]
    simp only [ne_eq, Option.some.injEq]
    omega
  · obtain rfl := List.mem_singleton.mp hm
    rw [hparent]
    simp only [ne_eq, Option.some.injEq]
    omega

/-- Attaching a hop puts its node into the tree once, below its parent. -/
theorem Draft.TreeMatches.attach (ht : d.TreeMatches) (hd : d.Rooted s hops) (hmem : parent ∈ d.nodes)
    (hsource : parent.entity = (s.relation id).source)
    (ha : (s.hop r parent id).attach r d = .ok (n, d')) : d'.TreeMatches := by
  obtain ⟨hid, -, hparent, hlt, -⟩ := hd.hangsBelow hmem hsource ha
  obtain ⟨hroot, hothers⟩ := Hop.nodes_of_attach ha
  have htree := Draft.tree_attach ha
  have hone : (d.tree.nodes.filter fun m => n.parent = some m.id).map (fun _ => n) = [n] := by
    have hperm := (ht.nodes.filter fun m => n.parent = some m.id).map fun _ => n
    refine List.perm_singleton.mp (hperm.trans (.of_eq ?_))
    have hids : (d.nodes.map (·.id)).Nodup := hd.ids ▸ List.nodup_range
    have hfilter : d.nodes.filter (fun m => n.parent = some m.id) = [parent] := by
      rw [hparent]
      simpa [eq_comm] using filter_eq_singleton hids hmem
    rw [hfilter]
    rfl
  constructor
  case nodes =>
    rw [htree]
    refine (LoadTree.nodes_attach_perm n d.tree).trans ?_
    rw [hone, Draft.nodes, hroot, hothers, ← List.cons_append]
    exact ht.nodes.append_right _
  case children =>
    intro t htmem
    rw [htree] at htmem
    rw [hothers, List.filter_append]
    rcases LoadTree.mem_subtrees_attach.mp htmem with ⟨u, hu, rfl⟩ | ⟨rfl, -⟩
    · rw [LoadTree.info_attach, LoadTree.children_attach, List.map_append, List.map_map,
        ← ht.children u hu]
      congr 1
      · exact List.map_congr_left fun c _ => LoadTree.info_attach n c
      · by_cases hp : n.parent = some u.info.id <;> simp [hp]
    · have hnone := hd.parent_ne hmem hsource ha
      rw [← List.filter_append]
      exact (List.filter_eq_nil_iff.mpr fun m hm heq => hnone m hm (of_decide_eq_true heq)).symm

/-- In every draft that a compilation passes through, the tree holds the nodes. -/
theorem Schema.Compiling.treeMatches (h : s.Compiling r root hops d) : d.TreeMatches := by
  induction h with
  | start =>
    refine ⟨.refl _, fun t ht => ?_⟩
    simp only [Draft.tree, Schema.rootDraft, List.foldl_nil, LoadTree.mem_subtrees_node,
      List.not_mem_nil, false_and, exists_false, or_false] at ht
    subst ht
    rfl
  | reuse _ _ ih => exact ih
  | attach h hmem hsource _ ha ih => exact ih.attach h.rooted hmem hsource ha

/-- The numbers of the nodes whose parent a node is, in the order in which they were attached. -/
def Draft.idsBelow (d : Draft) (m : Node) : List Nat :=
  (d.others.filter fun n => n.parent = some m.id).map (·.id)

/-- The lists of children after one more node is attached: it is added to the list of its parent only, and
has none itself. -/
theorem Draft.Rooted.children_visit (hd : d.Rooted s hops) (hmem : parent ∈ d.nodes)
    (hsource : parent.entity = (s.relation id).source)
    (ha : (s.hop r parent id).attach r d = .ok (n, d')) :
    (d.nodes.map d.idsBelow).modify parent.id (· ++ [n.id]) ++ [[]] = d'.nodes.map d'.idsBelow := by
  obtain ⟨-, -, hparent, -⟩ := hd.hangsBelow hmem hsource ha
  obtain ⟨hroot, hothers⟩ := Hop.nodes_of_attach ha
  have hnodes : d'.nodes = d.nodes ++ [n] := by simp [Draft.nodes, hroot, hothers]
  have hbelow (m : Node) : d'.idsBelow m = d.idsBelow m ++ if parent.id = m.id then [n.id] else [] := by
    by_cases heq : parent.id = m.id <;> simp [Draft.idsBelow, hothers, hparent, heq]
  have hlast : d'.idsBelow n = [] := by
    rw [Draft.idsBelow, hothers, List.map_eq_nil_iff, List.filter_eq_nil_iff]
    exact fun m hm heq => hd.parent_ne hmem hsource ha m hm (of_decide_eq_true heq)
  rw [hnodes, List.map_append, List.map_singleton, hlast]
  congr 1
  refine List.ext_getElem (by simp) fun i hi _ => ?_
  have hin : i < d.nodes.length := by simpa using hi
  have hid : d.nodes[i].id = i := by
    have hget : (d.nodes.map (·.id))[i]? = (List.range d.nodes.length)[i]? := by rw [hd.ids]
    simpa [hin] using hget
  rw [List.getElem_modify, List.getElem_map, List.getElem_map, hbelow, hid]
  split <;> simp

/-- In every draft that a compilation passes through, the children that are noted for a node are the nodes
whose parent it is. -/
theorem Schema.Compiling.children_eq (h : s.Compiling r root hops d) :
    d.notes.children = d.nodes.map d.idsBelow := by
  induction h with
  | start => rfl
  | reuse _ _ ih => exact ih
  | attach h hmem hsource _ ha ih =>
    rw [← h.rooted.children_visit hmem hsource ha, ← ih]
    obtain ⟨a, hp, rfl, rfl⟩ := Hop.attach_eq_ok ha
    have hchildren : a.draft.notes.children = _ := (Hop.placed_of_place hp).children_eq
    rw [Draft.notes_entrust, ← hchildren]
    rfl

/-- The children of a node of a compiled plan are the nodes whose parent it is. -/
theorem Schema.Compiling.children_plan (h : s.Compiling r root hops d) {m : Node} (hm : m ∈ d.nodes) :
    (d.plan s root).children m.id = d.idsBelow m := by
  have hget : d.nodes[m.id]? = some m := by
    obtain ⟨i, hi⟩ := List.mem_iff_getElem?.mp hm
    have hid : (d.nodes.map (·.id))[i]? = (List.range d.nodes.length)[i]? := by rw [h.rooted.ids]
    obtain ⟨hlt, heq⟩ := List.getElem?_eq_some_iff.mp hi
    have hmid : m.id = i := by simpa [hlt, heq] using hid
    exact hmid ▸ hi
  simp [Plan.children, Draft.plan, h.children_eq, hget]

/-- The nodes of a plan form a tree over the schema whose root loads an entity, and which loads the
targets on the paths to some relation names. -/
structure Plan.SpansTree (s : Schema) (root : s.EntityId) (names : List String) (p : Plan) : Prop where
  /-- Node `i` has number `i`, so the root has number 0. -/
  ids : p.nodes.map (·.id) = List.range p.nodes.length
  rootNode : p.root.entity = root ∧ p.root.parent = none ∧ p.root.relation = none
  /-- Every other node hangs below one of smaller number, along a relation of the schema. -/
  below : ∀ n ∈ p.others, ∃ m ∈ p.nodes, s.HangsBelow n m ∧ (p.children m.id).count n.id = 1
  /-- Children are listed in increasing order, and are the nodes whose parent it is. -/
  children : ∀ m ∈ p.nodes, (p.children m.id).Pairwise (· < ·) ∧
    ∀ i, i ∈ p.children m.id ↔ ∃ n ∈ p.nodes, n.id = i ∧ n.parent = some m.id
  /-- The tree holds every node once, each above its children. -/
  tree : p.tree.nodes.Perm p.nodes ∧
    ∀ t ∈ p.tree.subtrees, t.children.map (·.info.id) = p.children t.info.id
  /-- No entity is loaded twice below the root. -/
  distinct : (p.others.map (·.entity)).Nodup
  /-- The entities below the root are the targets of the hops on the paths. -/
  covered : ∀ e, e ∈ p.others.map (·.entity) ↔
    ∃ name ∈ names, ∃ id ∈ s.path root name, (s.relation id).target.val = e

/-- Numbers of nodes increase in the order in which they were attached. -/
theorem Draft.Rooted.pairwise_ids (hd : d.Rooted s hops) : (d.others.map (·.id)).Pairwise (· < ·) := by
  have hlt : (d.nodes.map (·.id)).Pairwise (· < ·) := hd.ids ▸ List.pairwise_lt_range
  exact hlt.of_cons

/-- Children of a node are listed in increasing order, and are the nodes whose parent it is. -/
theorem Schema.Compiling.children (h : s.Compiling r root hops d) {m : Node} (hm : m ∈ d.nodes) :
    ((d.plan s root).children m.id).Pairwise (· < ·) ∧
      ∀ i, i ∈ (d.plan s root).children m.id ↔ ∃ n ∈ d.nodes, n.id = i ∧ n.parent = some m.id := by
  have hroot : d.root.parent = none := by
    rw [h.root_eq]
    rfl
  rw [h.children_plan hm]
  refine ⟨h.rooted.pairwise_ids.sublist (List.filter_sublist.map _), fun i => ?_⟩
  simp only [Draft.idsBelow, List.mem_map, List.mem_filter, decide_eq_true_eq]
  constructor
  · rintro ⟨n, ⟨hn, hp⟩, rfl⟩
    exact ⟨n, List.mem_cons_of_mem _ hn, rfl, hp⟩
  · rintro ⟨n, hn, rfl, hp⟩
    rcases List.mem_cons.mp hn with rfl | hn
    · simp [hroot] at hp
    · exact ⟨n, ⟨hn, hp⟩, rfl⟩

/-- The entity looked up by name has the name. -/
theorem Schema.entityNamed_eq_ok {name : String} {e : s.EntityId} (h : s.entityNamed name = .ok e) :
    (s.entity e).name = name := by
  unfold Schema.entityNamed at h
  split at h
  · rename_i found hfound
    cases h
    exact Schema.name_of_findEntity? hfound
  · cases h

/-- An entity is found exactly under the names that are declared. -/
theorem Schema.exists_entityNamed {s : Schema} {name : String} :
    (∃ id, s.entityNamed name = .ok id) ↔ ∃ e ∈ s.entities, e.name = name := by
  constructor
  · rintro ⟨id, h⟩
    exact ⟨s.entity id, List.getElem_mem _, Schema.entityNamed_eq_ok h⟩
  · rintro ⟨e, he, rfl⟩
    unfold Schema.entityNamed
    cases hfind : s.findEntity? e.name with
    | some id => exact ⟨id, rfl⟩
    | none => exact absurd rfl (Schema.findEntity?_eq_none.mp hfind e he)

/-- A compiled plan is a tree over the schema: it is rooted at the entity that the request names and
loads exactly the targets on the paths to the requested relations. -/
theorem compile_spansTree {s : Schema} {r : Request} {p : Plan} (h : s.compile r = .ok p) :
    ∃ root, s.entityNamed r.model = .ok root ∧ (s.entity root).name = r.model ∧
      p.SpansTree s root r.relations := by
  obtain ⟨root, d, hroot, hd, rfl⟩ := Schema.compile_eq_ok h
  have hshape := hd.rooted
  have htree := hd.treeMatches
  refine ⟨root, hroot, Schema.entityNamed_eq_ok hroot, ?_⟩
  constructor
  case ids => exact hshape.ids
  case rootNode =>
    rw [Draft.plan, hd.root_eq]
    exact ⟨rfl, rfl, rfl⟩
  case below =>
    intro n hn
    obtain ⟨m, hm, hbelow⟩ := hshape.below n hn
    obtain ⟨hlt, hmem⟩ := hd.children hm
    have hin := (hmem n.id).mpr ⟨n, List.mem_cons_of_mem _ hn, rfl, hbelow.1⟩
    refine ⟨m, hm, hbelow, List.count_eq_one_of_mem (hlt.imp fun h => h.ne) hin⟩
  case children => exact fun m hm => hd.children hm
  case tree =>
    refine ⟨htree.nodes, fun t ht => ?_⟩
    have hinfo := congrArg (List.map (·.id)) (htree.children t ht)
    rw [List.map_map] at hinfo
    exact hinfo.trans (hd.children_plan (htree.nodes.mem_iff.mp (LoadTree.info_mem_nodes ht))).symm
  case distinct => exact hshape.distinct
  case covered =>
    intro e
    refine (hshape.covered e).trans ?_
    simp only [List.mem_flatMap, Request.relationNames, mem_sortedNames]
    constructor
    · rintro ⟨id, ⟨name, hname, hid⟩, he⟩
      exact ⟨name, hname, id, hid, he⟩
    · rintro ⟨name, hname, id, hid, he⟩
      exact ⟨id, ⟨name, hname, hid⟩, he⟩

/-- Roles, users and posts, with relations in both directions. -/
def forum : Schema := .ofRelations
  [.declare "Role" "role" "uuid" ["name"],
    .declare "User" "user" "uuid" ["name", "role_uuid"],
    .declare "Post" "post" "uuid" ["title", "author_uuid"]]
  [⟨"users", 0, 1, .many, [("uuid", "role_uuid")], none, some "role"⟩,
    ⟨"role", 1, 0, .one, [("role_uuid", "uuid")], none, some "users"⟩,
    ⟨"posts", 1, 2, .many, [("uuid", "author_uuid")], none, some "author"⟩,
    ⟨"author", 2, 1, .one, [("author_uuid", "uuid")], none, some "posts"⟩]

theorem forum_declared : forum.Declared := by
  simp [Schema.Declared, forum, Entity.declared_declare]

/-- Posts with the other users of their author's role. -/
theorem forum_spansTree :
    ∃ p, forum.compile { Request.forModel "Post" with relations := ["users", "role"] } = .ok p ∧
      ∃ root, forum.entityNamed "Post" = .ok root ∧ (forum.entity root).name = "Post" ∧
        p.SpansTree forum root ["users", "role"] := by
  have hcompile : ∃ p, forum.compile
      { Request.forModel "Post" with relations := ["users", "role"] } = .ok p := ⟨_, by cbv⟩
  obtain ⟨p, hp⟩ := hcompile
  exact ⟨p, hp, compile_spansTree hp⟩

end EagerLoad
