import EagerLoad.Schema.Path
import Mathlib.Data.Fintype.Basic
import Mathlib.Data.List.Shortlex
import Mathlib.Order.Fin.Basic

/-!
# Paths are least chains

A chain of relations leads from an entity to a relation name. Chains are compared by length first and
then hop by hop in declaration order. The search explores its queue in that order, and an entity that
is explored already has been reached by a lesser chain, so no least chain is lost by exploring every
entity once.
-/

namespace EagerLoad.Schema

variable {s : Schema} {root here : s.EntityId} {name : String}

/-- Every relation of the list starts where the one before it ends, the first at an entity. -/
def IsChain (s : Schema) : s.EntityId → List s.RelationId → Prop
  | _, [] => True
  | here, id :: rest => (s.relation id).source = here ∧ s.IsChain (s.relation id).target rest

/-- The entity at which a chain from an entity ends. -/
def chainEnd (s : Schema) : s.EntityId → List s.RelationId → s.EntityId
  | here, [] => here
  | _, id :: rest => s.chainEnd (s.relation id).target rest

/-- A chain that starts at `root` and whose last relation is named `name`. -/
def LeadsTo (s : Schema) (root : s.EntityId) (name : String) (chain : List s.RelationId) : Prop :=
  s.IsChain root chain ∧ ∃ last ∈ chain.getLast?, (s.relation last).name = name

/-- Two lists make one chain when the second one goes on where the first one ends. -/
theorem isChain_append {front back : List s.RelationId} :
    s.IsChain here (front ++ back) ↔
      s.IsChain here front ∧ s.IsChain (s.chainEnd here front) back := by
  induction front generalizing here with
  | nil => simp [IsChain, chainEnd]
  | cons id rest ih => simp only [List.cons_append, IsChain, chainEnd, ih, and_assoc]

/-- The end of a chain is the end of its second part. -/
theorem chainEnd_append (front back : List s.RelationId) :
    s.chainEnd here (front ++ back) = s.chainEnd (s.chainEnd here front) back := by
  induction front generalizing here with
  | nil => rfl
  | cons id rest ih => simp only [List.cons_append, chainEnd, ih]

/-- A chain that leads to a name has a last relation of that name. -/
theorem LeadsTo.exists_last {chain : List s.RelationId} (h : s.LeadsTo root name chain) :
    ∃ front last, chain = front ++ [last] ∧ (s.relation last).name = name := by
  obtain ⟨-, last, hlast, hname⟩ := h
  obtain ⟨front, rfl⟩ := List.getLast?_eq_some_iff.mp hlast
  exact ⟨front, last, rfl, hname⟩

/-- The front of a chain may be exchanged for another one that ends at the same entity. -/
theorem LeadsTo.exchange {front front' back : List s.RelationId}
    (h : s.LeadsTo root name (front ++ back)) (hback : back ≠ []) (hchain : s.IsChain root front')
    (hend : s.chainEnd root front' = s.chainEnd root front) :
    s.LeadsTo root name (front' ++ back) := by
  obtain ⟨hc, last, hlast, hname⟩ := h
  refine ⟨isChain_append.mpr ⟨hchain, ?_⟩, last, ?_, hname⟩
  · rw [hend]
    exact (isChain_append.mp hc).2
  · rw [List.getLast?_append_of_ne_nil _ hback] at hlast ⊢
    exact hlast

/-- The positions at which a test holds. -/
theorem filter_finRange {α : Type} (p : α → Bool) (l : List α) :
    ((List.finRange l.length).filter fun i => p l[i]).map (·.val) =
      (l.zipIdx.filter fun (a, _) => p a).map (·.2) := by
  have hzip : l.zipIdx = (List.finRange l.length).map fun i => (l[i], i.val) :=
    List.ext_getElem (by simp) (by simp)
  rw [hzip, List.filter_map, List.map_map]
  rfl

/-- What is listed at an entity are the relations that start there, in their order. -/
theorem outgoing_eq_filter (here : s.EntityId) : s.outgoing here =
    (List.finRange s.relations.length).filter fun id => (s.relation id).source = here := by
  have hlisted : s.registry.adjacency[here.val]?.getD [] = Relation.startingAt s.relations here := by
    simp [s.registry.adjacency_eq]
  have hid : ∀ ids : List s.RelationId, (ids.map (·.val)).filterMap s.relationId? = ids := by
    intro ids
    rw [List.filterMap_map]
    exact (List.filterMap_congr fun id _ => by simp [relationId?]).trans List.filterMap_some
  rw [outgoing, hlisted, Relation.startingAt,
    ← filter_finRange (fun r => decide (r.source = here)) s.relations, hid]
  rfl

/-- The relations that start at an entity. -/
@[simp] theorem mem_outgoing {id : s.RelationId} :
    id ∈ s.outgoing here ↔ (s.relation id).source = here := by
  simp [outgoing_eq_filter]

/-- Relations that start at an entity are listed in declaration order. -/
theorem pairwise_outgoing (here : s.EntityId) : (s.outgoing here).Pairwise (· < ·) := by
  rw [outgoing_eq_filter]
  exact (List.pairwise_lt_finRange _).filter _

/-- A relation found by name starts at the entity, has the name, and is the first one to have it. -/
theorem relationNamed?_eq_some {id : s.RelationId} (h : s.relationNamed? here name = some id) :
    (s.relation id).source = here ∧ (s.relation id).name = name ∧
      ∀ other, (s.relation other).source = here → (s.relation other).name = name → id ≤ other := by
  obtain ⟨hname, front, back, hsplit, hfront⟩ := List.find?_eq_some_iff_append.mp h
  have hmem : id ∈ s.outgoing here := hsplit ▸ List.mem_append_right _ List.mem_cons_self
  refine ⟨mem_outgoing.mp hmem, by simpa using hname, fun other hsource hother => ?_⟩
  have hin : other ∈ front ++ id :: back := hsplit ▸ mem_outgoing.mpr hsource
  rcases List.mem_append.mp hin with hin | hin
  · simpa [hother] using hfront other hin
  · have hsorted := hsplit ▸ pairwise_outgoing here
    rcases List.mem_cons.mp hin with rfl | hin
    · exact Fin.le_refl _
    · exact Fin.le_of_lt (List.rel_of_pairwise_cons (List.pairwise_append.mp hsorted).2.1 hin)

/-- Without a relation found by name, no relation of the name starts at the entity. -/
theorem relationNamed?_eq_none (h : s.relationNamed? here name = none) (id : s.RelationId)
    (hsource : (s.relation id).source = here) : (s.relation id).name ≠ name := by
  have hnone := List.find?_eq_none.mp h id (mem_outgoing.mpr hsource)
  simpa using hnone

/-- What holds of the queue whenever the search looks at it. -/
structure Frontier (s : Schema) (root : s.EntityId) (unexplored : List s.EntityId)
    (queue : List (s.EntityId × List s.RelationId)) : Prop where
  /-- Every entry holds a chain from the root to its entity. -/
  chain : ∀ e ∈ queue, s.IsChain root e.2 ∧ s.chainEnd root e.2 = e.1
  /-- Lesser chains come first. -/
  sorted : queue.Pairwise fun a b => List.Shortlex (· < ·) a.2 b.2
  /-- No chain in the queue is longer or greater than what any entry is extended to. -/
  window : ∀ a ∈ queue, ∀ b ∈ queue, ∀ id, List.Shortlex (· < ·) b.2 (a.2 ++ [id])
  /-- An entity that is not of interest any more was reached by a lesser chain. -/
  explored : ∀ v ∉ unexplored, ∃ chain, s.IsChain root chain ∧ s.chainEnd root chain = v ∧
    ∀ e ∈ queue, List.Shortlex (· < ·) chain e.2

/-- Appending to a greater chain gives a greater chain. -/
theorem shortlex_append_singleton {n : Nat} {a b : List (Fin n)} (x y : Fin n)
    (h : List.Shortlex (· < ·) a b) : List.Shortlex (· < ·) (a ++ [x]) (b ++ [y]) := by
  rcases List.shortlex_def.mp h with hlen | ⟨hlen, hlex⟩
  · exact .of_length_lt (by simpa using hlen)
  · refine .of_lex (by simpa using hlen) ?_
    clear h
    induction hlex with
    | nil => simp at hlen
    | cons _ ih => exact .cons (ih (by simpa using hlen))
    | rel hab => exact .rel hab

/-- A lesser list stays lesser when the same is appended to both. -/
theorem shortlex_append_same {n : Nat} {a b : List (Fin n)} (c : List (Fin n))
    (h : List.Shortlex (· < ·) a b) : List.Shortlex (· < ·) (a ++ c) (b ++ c) := by
  induction c generalizing a b with
  | nil => simpa using h
  | cons x c ih => simpa using ih (shortlex_append_singleton x x h)

/-- Forgetting an entry whose entity is not of interest keeps the search in order. -/
theorem Frontier.skip {unexplored : List s.EntityId} {e : s.EntityId × List s.RelationId}
    {queue : List (s.EntityId × List s.RelationId)} (h : s.Frontier root unexplored (e :: queue)) :
    s.Frontier root unexplored queue where
  chain a ha := h.chain a (List.mem_cons_of_mem _ ha)
  sorted := h.sorted.of_cons
  window a ha b hb := h.window a (List.mem_cons_of_mem _ ha) b (List.mem_cons_of_mem _ hb)
  explored v hv := by
    obtain ⟨chain, hchain, hend, hless⟩ := h.explored v hv
    exact ⟨chain, hchain, hend, fun a ha => hless a (List.mem_cons_of_mem _ ha)⟩

/-- An entry that an entity adds to the queue holds the path to it with one relation more. -/
theorem mem_extensions {path : List s.RelationId} {e : s.EntityId × List s.RelationId} :
    e ∈ s.extensions here path ↔
      ∃ id, (s.relation id).source = here ∧ e = ((s.relation id).target, path ++ [id]) := by
  simp [extensions, eq_comm]

/-- Exploring the first entity of the queue keeps the search in order. -/
theorem Frontier.explore {unexplored : List s.EntityId} {path : List s.RelationId}
    {queue : List (s.EntityId × List s.RelationId)}
    (h : s.Frontier root unexplored ((here, path) :: queue)) (keep : s.EntityId × _ → Bool) :
    s.Frontier root (unexplored.erase here)
      (queue ++ (s.extensions here path).filter keep) := by
  have hhead : (here, path) ∈ (here, path) :: queue := List.mem_cons_self
  have hold {a} (ha : a ∈ queue) : a ∈ (here, path) :: queue := List.mem_cons_of_mem _ ha
  have hless {a} (ha : a ∈ queue) : List.Shortlex (· < ·) path a.2 :=
    List.rel_of_pairwise_cons h.sorted ha
  have hnew {a} (ha : a ∈ (s.extensions here path).filter keep) :
      ∃ id, (s.relation id).source = here ∧ a = ((s.relation id).target, path ++ [id]) :=
    mem_extensions.mp (List.mem_filter.mp ha).1
  have hpath (id : s.RelationId) : List.Shortlex (· < ·) path (path ++ [id]) :=
    .of_length_lt (by simp)
  constructor
  case chain =>
    intro a ha
    rcases List.mem_append.mp ha with ha | ha
    · exact h.chain a (hold ha)
    · obtain ⟨id, hsource, rfl⟩ := hnew ha
      obtain ⟨hchain, hend⟩ := h.chain _ hhead
      refine ⟨isChain_append.mpr ⟨hchain, ?_, trivial⟩, ?_⟩
      · rw [hend, hsource]
      · rw [chainEnd_append]
        rfl
  case sorted =>
    refine List.pairwise_append.mpr ⟨h.sorted.of_cons, ?_, fun a ha b hb => ?_⟩
    · refine List.Pairwise.filter _ (List.pairwise_map.mpr ?_)
      refine (pairwise_outgoing here).imp fun hlt => ?_
      exact List.Shortlex.append_left ((List.shortlex_singleton_iff _ _).mpr hlt) path
    · obtain ⟨id, -, rfl⟩ := hnew hb
      exact h.window _ hhead a (hold ha) id
  case window =>
    intro a ha b hb id
    rcases List.mem_append.mp ha with ha | ha <;> rcases List.mem_append.mp hb with hb | hb
    · exact h.window a (hold ha) b (hold hb) id
    · obtain ⟨other, -, rfl⟩ := hnew hb
      exact shortlex_append_singleton other id (hless ha)
    · obtain ⟨other, -, rfl⟩ := hnew ha
      exact (h.window _ hhead b (hold hb) other).append_right [id]
    · obtain ⟨other, -, rfl⟩ := hnew ha
      obtain ⟨another, -, rfl⟩ := hnew hb
      exact .of_length_lt (by simp)
  case explored =>
    intro v hv
    by_cases hvh : v = here
    · obtain ⟨hchain, hend⟩ := h.chain _ hhead
      refine ⟨path, hchain, hvh ▸ hend, fun a ha => ?_⟩
      rcases List.mem_append.mp ha with ha | ha
      · exact hless ha
      · obtain ⟨id, -, rfl⟩ := hnew ha
        exact hpath id
    · obtain ⟨chain, hchain, hend, hbefore⟩ :=
        h.explored v fun hmem => hv ((List.mem_erase_of_ne hvh).mpr hmem)
      refine ⟨chain, hchain, hend, fun a ha => ?_⟩
      rcases List.mem_append.mp ha with ha | ha
      · exact hbefore a (hold ha)
      · obtain ⟨id, -, rfl⟩ := hnew ha
        exact (hbefore _ hhead).append_right [id]

/-- What the search finds is a chain to the name. -/
theorem search_leadsTo {unexplored : List s.EntityId}
    {queue : List (s.EntityId × List s.RelationId)} (h : s.Frontier root unexplored queue)
    (hfound : s.search name unexplored queue ≠ []) :
    s.LeadsTo root name (s.search name unexplored queue) := by
  induction unexplored, queue using search.induct s name with
  | case1 => simp [search] at hfound
  | case2 unexplored here path queue hin id hid =>
    obtain ⟨hchain, hend⟩ := h.chain _ List.mem_cons_self
    obtain ⟨hsource, hname, -⟩ := relationNamed?_eq_some hid
    rw [search, if_pos hin, hid]
    refine ⟨isChain_append.mpr ⟨hchain, ?_, trivial⟩, id, by simp, hname⟩
    rw [hend, hsource]
  | case3 unexplored here path queue hin hnone remaining ih =>
    rw [search, if_pos hin, hnone] at hfound ⊢
    exact ih (h.explore _) hfound
  | case4 unexplored here path queue hin ih =>
    rw [search, if_neg hin] at hfound ⊢
    exact ih h.skip hfound

/-- A chain to a name that no other one precedes. -/
def IsLeast (s : Schema) (root : s.EntityId) (name : String) (chain : List s.RelationId) : Prop :=
  s.LeadsTo root name chain ∧
    ∀ other, s.LeadsTo root name other → ¬ List.Shortlex (· < ·) other chain

/-- The entry of the queue at which a least chain goes on. -/
def GoesOn (chain : List s.RelationId) (unexplored : List s.EntityId)
    (queue : List (s.EntityId × List s.RelationId)) : Prop :=
  ∃ e ∈ queue, e.1 ∈ unexplored ∧ ∃ back ≠ [], chain = e.2 ++ back

/-- A least chain does not reach an entity that is explored already: the chain by which that entity was
reached could be put in its place. -/
theorem IsLeast.end_mem {front back : List s.RelationId} {unexplored : List s.EntityId}
    {queue : List (s.EntityId × List s.RelationId)}
    (hleast : s.IsLeast root name (front ++ back)) (hback : back ≠ [])
    (h : s.Frontier root unexplored queue) (hfront : (s.chainEnd root front, front) ∈ queue) :
    s.chainEnd root front ∈ unexplored := by
  by_contra hout
  obtain ⟨chain, hchain, hend, hless⟩ := h.explored _ hout
  exact hleast.2 _ (hleast.1.exchange hback hchain hend) (shortlex_append_same back (hless _ hfront))

/-- When the search stops at the first entity of the queue, it has found the least chain. -/
theorem Frontier.found_eq {unexplored : List s.EntityId} {path chain : List s.RelationId}
    {queue : List (s.EntityId × List s.RelationId)}
    (h : s.Frontier root unexplored ((here, path) :: queue)) (hleast : s.IsLeast root name chain)
    (hgoes : GoesOn chain unexplored ((here, path) :: queue)) {id : s.RelationId}
    (hid : s.relationNamed? here name = some id) : path ++ [id] = chain := by
  obtain ⟨hsource, hname, hfirst⟩ := relationNamed?_eq_some hid
  obtain ⟨hpath, hpathEnd⟩ := h.chain _ List.mem_cons_self
  have hfound : s.LeadsTo root name (path ++ [id]) :=
    ⟨isChain_append.mpr ⟨hpath, hpathEnd.trans hsource.symm ▸ rfl, trivial⟩, id, by simp, hname⟩
  have hnot := hleast.2 _ hfound
  obtain ⟨e, he, -, back, hback, rfl⟩ := hgoes
  obtain ⟨next, rest, rfl⟩ := List.exists_cons_of_ne_nil hback
  rcases List.mem_cons.mp he with rfl | he
  · cases rest with
    | nil =>
      obtain ⟨hc, last, hlast, hlastName⟩ := hleast.1
      obtain rfl : next = last := by simpa using hlast
      have hnext := (isChain_append.mp hc).2.1
      rcases Fin.lt_or_eq_of_le (hfirst next (hnext.trans hpathEnd) hlastName) with hlt | rfl
      · exact absurd (List.Shortlex.append_left ((List.shortlex_singleton_iff _ _).mpr hlt) path) hnot
      · rfl
    | cons => exact absurd (List.Shortlex.of_length_lt (by simp)) hnot
  · have hless := shortlex_append_singleton id next (List.rel_of_pairwise_cons h.sorted he)
    have happ := hless.append_right rest
    rw [List.append_assoc] at happ
    exact absurd happ hnot

/-- Exploring the first entity of the queue keeps the place at which a least chain goes on. -/
theorem Frontier.goesOn_explore {unexplored : List s.EntityId} {path chain : List s.RelationId}
    {queue : List (s.EntityId × List s.RelationId)}
    (h : s.Frontier root unexplored ((here, path) :: queue)) (hleast : s.IsLeast root name chain)
    (hgoes : GoesOn chain unexplored ((here, path) :: queue))
    (hnone : s.relationNamed? here name = none) :
    GoesOn chain (unexplored.erase here) (queue ++ (s.extensions here path).filter
      fun next => next.1 ∈ unexplored.erase here) := by
  obtain ⟨hpath, hpathEnd⟩ := h.chain _ List.mem_cons_self
  obtain ⟨e, he, hin, back, hback, rfl⟩ := hgoes
  rcases List.mem_cons.mp he with rfl | he
  · obtain ⟨next, rest, rfl⟩ := List.exists_cons_of_ne_nil hback
    have hsource := ((isChain_append.mp hleast.1.1).2.1).trans hpathEnd
    have hrest : rest ≠ [] := by
      rintro rfl
      obtain ⟨-, last, hlast, hname⟩ := hleast.1
      obtain rfl : next = last := by simpa using hlast
      exact relationNamed?_eq_none hnone next hsource hname
    have hend : s.chainEnd root (path ++ [next]) = (s.relation next).target := by
      rw [chainEnd_append]
      rfl
    have hentry : ((s.relation next).target, path ++ [next]) ∈ s.extensions here path :=
      mem_extensions.mpr ⟨next, hsource, rfl⟩
    have hsplit : path ++ next :: rest = (path ++ [next]) ++ rest := by simp
    rw [hsplit] at hleast ⊢
    -- the target is still of interest, whatever the queue keeps
    have htarget := hleast.end_mem hrest (h.explore fun _ => true) (by simp [hend, hentry])
    rw [hend] at htarget
    refine ⟨_, List.mem_append_right _ (List.mem_filter.mpr ⟨hentry, ?_⟩), htarget, rest, hrest, rfl⟩
    simpa using htarget
  · refine ⟨e, List.mem_append_left _ he, (List.mem_erase_of_ne fun heq => ?_).mpr hin, back, hback, rfl⟩
    have hend : s.chainEnd root path = s.chainEnd root e.2 := by
      rw [hpathEnd, (h.chain e (List.mem_cons_of_mem _ he)).2, heq]
    exact hleast.2 _ (hleast.1.exchange hback hpath hend)
      (shortlex_append_same back (List.rel_of_pairwise_cons h.sorted he))

/-- The search finds the least chain to the name as long as its queue holds a beginning of it. -/
theorem search_eq_of_isLeast {unexplored : List s.EntityId} {chain : List s.RelationId}
    {queue : List (s.EntityId × List s.RelationId)} (h : s.Frontier root unexplored queue)
    (hleast : s.IsLeast root name chain) (hgoes : GoesOn chain unexplored queue) :
    s.search name unexplored queue = chain := by
  induction unexplored, queue using search.induct s name with
  | case1 => simp [GoesOn] at hgoes
  | case2 unexplored here path queue hin id hid =>
    rw [search, if_pos hin, hid]
    exact h.found_eq hleast hgoes hid
  | case3 unexplored here path queue hin hnone remaining ih =>
    rw [search, if_pos hin, hnone]
    exact ih (h.explore _) (h.goesOn_explore hleast hgoes hnone)
  | case4 unexplored here path queue hin ih =>
    rw [search, if_neg hin]
    obtain ⟨e, he, hein, hback⟩ := hgoes
    rcases List.mem_cons.mp he with rfl | he
    · exact absurd hein hin
    · exact ih h.skip ⟨e, he, hein, hback⟩

/-- The search starts in order. -/
theorem frontier_start (root : s.EntityId) :
    s.Frontier root (List.finRange s.entities.length) [(root, [])] where
  chain e he := by
    obtain rfl := List.mem_singleton.mp he
    exact ⟨trivial, rfl⟩
  sorted := List.pairwise_singleton _ _
  window a ha b hb id := by
    obtain rfl := List.mem_singleton.mp ha
    obtain rfl := List.mem_singleton.mp hb
    exact .of_length_lt (by simp)
  explored v hv := absurd (List.mem_finRange v) hv

/-- The path to a relation name is the least chain to it. -/
theorem path_eq_of_isLeast {chain : List s.RelationId} (hleast : s.IsLeast root name chain) :
    s.path root name = chain := by
  refine search_eq_of_isLeast (frontier_start root) hleast ⟨(root, []), by simp, by simp, chain, ?_, rfl⟩
  obtain ⟨front, last, rfl, -⟩ := hleast.1.exists_last
  simp

/-- A path that is not empty is a chain to the name. -/
theorem path_leadsTo (h : s.path root name ≠ []) : s.LeadsTo root name (s.path root name) :=
  search_leadsTo (frontier_start root) h

/-- Every path is a chain from the root. -/
theorem isChain_path (root : s.EntityId) (name : String) : s.IsChain root (s.path root name) := by
  by_cases h : s.path root name = []
  · rw [h]
    trivial
  · exact (path_leadsTo h).1

/-- Where a chain leads to a name, a least one does. -/
theorem LeadsTo.exists_isLeast {chain : List s.RelationId} (h : s.LeadsTo root name chain) :
    ∃ least, s.IsLeast root name least := by
  have hwf : WellFounded (List.Shortlex (α := s.RelationId) (· < ·)) :=
    List.Shortlex.wf wellFounded_lt
  obtain ⟨least, hleast, hmin⟩ := hwf.has_min {c | s.LeadsTo root name c} ⟨chain, h⟩
  exact ⟨least, hleast, hmin⟩

/-- The path to a name is empty exactly if no chain leads there. Otherwise it is a chain to the name, no
chain to it is shorter, and of those as short it comes first in declaration order, hop by hop. -/
theorem path_least (s : Schema) (root : s.EntityId) (name : String) :
    (s.path root name = [] ↔ ∀ chain, ¬ s.LeadsTo root name chain) ∧
      ∀ chain, s.LeadsTo root name chain →
        s.LeadsTo root name (s.path root name) ∧
          ((s.path root name).length < chain.length ∨
            (s.path root name).length = chain.length ∧
              (s.path root name = chain ∨ List.Lex (· < ·) (s.path root name) chain)) := by
  refine ⟨⟨fun hempty chain h => ?_, fun hnone => ?_⟩, fun chain h => ?_⟩
  · obtain ⟨least, hleast⟩ := h.exists_isLeast
    obtain ⟨front, last, rfl, -⟩ := hleast.1.exists_last
    rw [path_eq_of_isLeast hleast] at hempty
    simp at hempty
  · by_contra hne
    exact hnone _ (path_leadsTo hne)
  · obtain ⟨least, hleast⟩ := h.exists_isLeast
    rw [path_eq_of_isLeast hleast]
    refine ⟨hleast.1, ?_⟩
    rcases trichotomous_of (List.Shortlex (· < ·)) least chain with hlt | rfl | hgt
    · rcases List.shortlex_def.mp hlt with hlen | ⟨hlen, hlex⟩
      · exact .inl hlen
      · exact .inr ⟨hlen, .inr hlex⟩
    · exact .inr ⟨rfl, .inl rfl⟩
    · exact absurd hgt (hleast.2 chain h)

end EagerLoad.Schema
