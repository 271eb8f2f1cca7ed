import EagerLoad.Proofs.Hydration.Forest

/-!
# Records are emitted once

Finishing walks from the root records down the lists of children. As the records form a forest, it comes
to no record twice.
-/

namespace EagerLoad

open Arena

variable {s : Schema} {req : Request} {p : Plan} {a : Arena} {t : LoadTree} {q q' x : Nat}
  {e : KeyedRecord}

/-- The child records that are emitted for a record: the first one, or all of them. -/
def Cardinality.emitted : Cardinality → List Nat → List Nat
  | .one, loaded => loaded.take 1
  | .many, loaded => loaded

namespace LoadTree

mutual

/-- A record as JSON with the positions of all records that are emitted for it, in order. -/
def emit (arena : Arena) (position : Nat) : LoadTree → Json × List Nat
  | .node _ children =>
    let columns := match arena.records[position]? with
      | some r => r.values.entries.map fun (column, value) => (column, value.toJson)
      | none => []
    let below := emitBelow arena position children
    (.object (columns ++ below.1), position :: below.2)

/-- The entries of a record for some child nodes, with the positions of the records in them. -/
def emitBelow (arena : Arena) (position : Nat) : List LoadTree → List (String × Json) × List Nat
  | [] => ([], [])
  | tree :: rest =>
    let loaded := tree.info.cardinality.emitted (arena.childrenOf tree.info.id position)
    let records := loaded.map fun child => tree.emit arena child
    let more := emitBelow arena position rest
    ((tree.info.name, tree.info.cardinality.entry (records.map (·.1))) :: more.1,
      records.flatMap (·.2) ++ more.2)

end

/-- The positions that are emitted below a record are those for its children, one child after the
other. -/
theorem emitBelow_snd (children : List LoadTree) : (emitBelow a q children).2 =
    children.flatMap fun c =>
      (c.info.cardinality.emitted (a.childrenOf c.info.id q)).flatMap fun x => (c.emit a x).2 := by
  induction children with
  | nil => rfl
  | cons c rest ih => simp only [emitBelow, ih, List.flatMap_cons, List.flatMap_map]

/-- What is emitted is the record as JSON. -/
theorem emit_fst (t : LoadTree) (a : Arena) (q : Nat) : (t.emit a q).1 = t.recordJson a q := by
  induction t using LoadTree.induction generalizing q with
  | node n children ih =>
    have hbelow : ∀ part ⊆ children, (emitBelow a q part).1 = entriesJson a q part := by
      intro part
      induction part with
      | nil => exact fun _ => rfl
      | cons c rest ihrest =>
        intro hpart
        obtain ⟨hc, hrest⟩ := List.cons_subset.mp hpart
        have hchildren (loaded : List Nat) : (loaded.map fun x => c.emit a x).map (·.1) =
            loaded.map fun x => c.recordJson a x := by
          rw [List.map_map]
          exact List.map_congr_left fun x _ => ih c hc x
        simp only [emitBelow, entriesJson, ihrest hrest, hchildren]
        cases c.info.cardinality with
        | one => cases a.childrenOf c.info.id q <;> rfl
        | many => rfl
    cases hrecord : a.records[q]? <;>
      simp only [emit, recordJson, hrecord, hbelow children (List.Subset.refl _)]

end LoadTree

namespace Arena

/-- A record hangs below another one. -/
def HasParent (a : Arena) (x y : Nat) : Prop :=
  ∃ e, a.log[x]? = some e ∧ e.parent = some y

/-- The chain of parents of a record comes to a record, or starts there. -/
def LeadsUp (a : Arena) : Nat → Nat → Prop :=
  Relation.ReflTransGen a.HasParent

end Arena

namespace Plan.Forest

variable (hf : p.Forest a)

include hf

/-- The chain of parents comes to earlier records. -/
theorem le_of_leadsUp (h : a.LeadsUp x q) : q ≤ x := by
  induction h with
  | refl => exact le_refl _
  | tail _ hstep ih =>
    obtain ⟨e, he, hparent⟩ := hstep
    obtain ⟨-, -, -, -, -, hlt⟩ := hf.placed _ e he
    exact (hlt _ hparent).le.trans ih

/-- A record is not below another one with the same parent. -/
theorem eq_of_leadsUp {e' : KeyedRecord} (he : a.log[q]? = some e) (he' : a.log[q']? = some e')
    (hparent : e.parent = e'.parent) (h : a.LeadsUp q q') : q = q' := by
  rcases h.cases_head with heq | ⟨y, ⟨e₁, he₁, hy⟩, hup⟩
  · exact heq
  · obtain rfl := Option.some.inj (he.symm.trans he₁)
    obtain ⟨-, -, -, -, -, hlt⟩ := hf.placed q' e' he'
    have hbefore := hlt y (hparent.symm.trans hy)
    have hle := hf.le_of_leadsUp hup
    omega

/-- Records with the same parent have nothing in common below them. -/
theorem eq_of_leadsUp_of_leadsUp {e' : KeyedRecord} (he : a.log[q]? = some e)
    (he' : a.log[q']? = some e') (hparent : e.parent = e'.parent) (h : a.LeadsUp x q)
    (h' : a.LeadsUp x q') : q = q' := by
  have hunique : Relator.RightUnique a.HasParent := by
    rintro x y z ⟨e, he, hy⟩ ⟨e', he', hz⟩
    obtain rfl := Option.some.inj (he.symm.trans he')
    exact Option.some.inj (hy.symm.trans hz)
  rcases Relation.ReflTransGen.total_of_right_unique hunique h h' with hup | hup
  · exact hf.eq_of_leadsUp he he' hparent hup
  · exact (hf.eq_of_leadsUp he' he hparent.symm hup).symm

end Plan.Forest

namespace LoadTree

theorem emitted_sublist (c : Cardinality) (loaded : List Nat) : (c.emitted loaded).Sublist loaded := by
  cases c with
  | one => exact List.take_sublist 1 loaded
  | many => exact .refl _

/-- What is emitted for a record is the record and what is below it. -/
theorem leadsUp_of_mem_emit (ha : a.InStep) (h : x ∈ (t.emit a q).2) : a.LeadsUp x q := by
  induction t using LoadTree.induction generalizing q with
  | node n children ih =>
    rw [emit, emitBelow_snd, List.mem_cons] at h
    rcases h with rfl | h
    · exact .refl
    · obtain ⟨c, hc, h⟩ := List.mem_flatMap.mp h
      obtain ⟨y, hy, hx⟩ := List.mem_flatMap.mp h
      obtain ⟨e, he, -, hparent⟩ := ha.mem_childrenOf.mp ((emitted_sublist _ _).mem hy)
      exact (ih c hc hx).tail ⟨e, he, hparent⟩

/-- Nothing is emitted twice for a record. -/
theorem nodup_emit (hf : p.Forest a) (hids : t.ids.Nodup) (q : Nat) : (t.emit a q).2.Nodup := by
  have ha := hf.inStep
  induction t using LoadTree.induction generalizing q with
  | node n children ih =>
    have hchild {c : LoadTree} (hc : c ∈ children) : c.ids.Nodup :=
      ids_nodup_of_mem_subtrees hids (mem_subtrees_node.mpr (.inr ⟨c, hc, mem_subtrees_self c⟩))
    -- What is emitted for two child records overlaps only if they are one.
    have honly {c c' : LoadTree} {y y' x : Nat}
        (hy : y ∈ c.info.cardinality.emitted (a.childrenOf c.info.id q))
        (hy' : y' ∈ c'.info.cardinality.emitted (a.childrenOf c'.info.id q)) (hx : x ∈ (c.emit a y).2)
        (hx' : x ∈ (c'.emit a y').2) : y = y' ∧ c.info.id = c'.info.id := by
      obtain ⟨e, he, hnode, hparent⟩ := ha.mem_childrenOf.mp ((emitted_sublist _ _).mem hy)
      obtain ⟨e', he', hnode', hparent'⟩ := ha.mem_childrenOf.mp ((emitted_sublist _ _).mem hy')
      obtain rfl := hf.eq_of_leadsUp_of_leadsUp he he' (hparent.trans hparent'.symm)
        (leadsUp_of_mem_emit ha hx) (leadsUp_of_mem_emit ha hx')
      obtain rfl := Option.some.inj (he.symm.trans he')
      exact ⟨rfl, hnode.symm.trans hnode'⟩
    rw [emit, emitBelow_snd]
    refine List.nodup_cons.mpr ⟨fun hmem => ?_, List.nodup_flatMap.mpr ⟨fun c hc => ?_, ?_⟩⟩
    · -- A record comes before those below it.
      obtain ⟨c, hc, h⟩ := List.mem_flatMap.mp hmem
      obtain ⟨y, hy, hq⟩ := List.mem_flatMap.mp h
      obtain ⟨e, he, -, hparent⟩ := ha.mem_childrenOf.mp ((emitted_sublist _ _).mem hy)
      obtain ⟨-, -, -, -, -, hlt⟩ := hf.placed y e he
      have hle := hf.le_of_leadsUp (leadsUp_of_mem_emit ha hq)
      have hbefore := hlt q hparent
      omega
    · have hnodup : (c.info.cardinality.emitted (a.childrenOf c.info.id q)).Nodup :=
        ha.nodup_childrenOf.sublist (emitted_sublist _ _)
      refine List.nodup_flatMap.mpr ⟨fun y _ => ih c hc (hchild hc) y, ?_⟩
      refine hnodup.imp_of_mem fun hy hy' hne => ?_
      exact List.disjoint_left.mpr fun x hx hx' => hne (honly hy hy' hx hx').1
    · rw [ids_node, List.nodup_cons, List.nodup_flatMap] at hids
      refine hids.2.2.imp fun {c c'} hdisjoint => ?_
      refine List.disjoint_left.mpr fun x hx hx' => ?_
      obtain ⟨y, hy, hx⟩ := List.mem_flatMap.mp hx
      obtain ⟨y', hy', hx'⟩ := List.mem_flatMap.mp hx'
      have hid := (honly hy hy' hx hx').2
      exact List.disjoint_left.mp hdisjoint (id_mem_ids c) (hid ▸ id_mem_ids c')

end LoadTree

/-- The lists of an arena are those of a forest over the tree of a plan. -/
structure Plan.Consistent (p : Plan) (a : Arena) : Prop where
  inStep : a.InStep
  /-- Lists hold positions of records only. -/
  listed : (∀ q ∈ a.roots, q < a.records.length) ∧
    ∀ node parent, ∀ q ∈ a.childrenOf node parent, q < a.records.length
  /-- A record of the root is listed once among the roots, and nowhere else. -/
  root : ∀ (q : Nat) (r : Record), a.records[q]? = some r → r.node = p.root.id →
    a.roots.count q = 1 ∧ ∀ node parent, q ∉ a.childrenOf node parent
  /-- Any other record is listed once among the children of one record, which comes before it and belongs
  to the parent of its node. -/
  below : ∀ (q : Nat) (r : Record), a.records[q]? = some r → r.node ≠ p.root.id → q ∉ a.roots ∧
    ∃ parent above, a.records[parent]? = some above ∧ parent < q ∧
      (∃ n ∈ p.nodes, n.id = r.node ∧ n.parent = some above.node) ∧
      (a.childrenOf r.node parent).count q = 1 ∧
      ∀ node other, q ∈ a.childrenOf node other → node = r.node ∧ other = parent
  /-- Each record is seen under one parent, node and key, and nothing else is seen. -/
  seen : a.seen.map (·.2) = List.range a.records.length ∧ (a.seen.map (·.1)).Nodup ∧
    ∀ q, q < a.records.length ↔ ∃! noted : Option Nat × Nat × String,
      a.find? noted.2.1 noted.1 noted.2.2 = some q
  /-- The node under which a record is seen is its own, and the parent is that from whose list it hangs. -/
  named : ∀ node parent key q, a.find? node parent key = some q → ∃ r, a.records[q]? = some r ∧
    r.node = node ∧ (parent = none ↔ q ∈ a.roots) ∧
      ∀ above, parent = some above ↔ q ∈ a.childrenOf node above
  /-- A record has a value for each column of its node. -/
  columns : ∀ r ∈ a.records, ∃ n ∈ p.nodes, n.id = r.node ∧
    ∀ column ∈ n.columns, ∃ v, r.values.get? column = some v
  /-- Finishing emits no record twice. -/
  finish : p.finish a = a.roots.map (fun root => (p.tree.emit a root).1) ∧
    (a.roots.flatMap fun root => (p.tree.emit a root).2).Nodup

namespace Plan.Forest

/-- A record is seen as its parent, its node and its key. -/
theorem find?_of_log (hf : p.Forest a) (he : a.log[q]? = some e) :
    a.find? e.node e.parent e.key = some q :=
  hf.find?_iff.mpr ⟨e, he, rfl, rfl, rfl⟩

/-- No two records are seen as one. -/
theorem nodup_seen (hf : p.Forest a) : (a.seen.map (·.1)).Nodup := by
  refine List.nodup_iff_getElem?_ne_getElem?.mpr fun q q' hlt hq' heq => ?_
  rw [List.length_map, hf.inStep.length_seen, ← hf.inStep.length_log] at hq'
  have hseen {q : Nat} (hq : q < a.log.length) :
      (a.seen.map (·.1))[q]? = some (a.log[q].parent, a.log[q].node, a.log[q].key) := by
    rw [List.getElem?_map, (hf.inStep.log_eq_some_iff.mp (List.getElem?_eq_getElem hq)).2]
    rfl
  rw [hseen (hlt.trans hq'), hseen hq', Option.some.injEq, Prod.mk.injEq, Prod.mk.injEq] at heq
  obtain ⟨hparent, hnode, hkey⟩ := heq
  exact hlt.ne (hf.distinct q q' _ _ (List.getElem?_eq_getElem _) (List.getElem?_eq_getElem _) hnode hparent hkey)

/-- Each record is seen under one parent, node and key. -/
theorem existsUnique_seen (hf : p.Forest a) : q < a.records.length ↔
    ∃! noted : Option Nat × Nat × String, a.find? noted.2.1 noted.1 noted.2.2 = some q := by
  constructor
  · intro hlt
    obtain ⟨e, he, -⟩ := hf.inStep.exists_log (List.getElem?_eq_getElem hlt)
    refine ⟨(e.parent, e.node, e.key), hf.find?_of_log he, fun noted hnoted => ?_⟩
    obtain ⟨e', he', hnode, hparent, hkey⟩ := hf.find?_iff.mp hnoted
    obtain rfl := Option.some.inj (he.symm.trans he')
    rw [hnode, hparent, hkey]
  · rintro ⟨noted, hnoted, -⟩
    obtain ⟨e, he, -⟩ := hf.find?_iff.mp hnoted
    exact (List.getElem?_eq_some_iff.mp (record_of_log he)).1

/-- The records of the root are those without a parent. -/
theorem parent_eq_none_iff (hp : p.Staged) (hroot : p.tree.info = p.root) (hf : p.Forest a)
    (he : a.log[q]? = some e) : e.parent = none ↔ e.node = p.root.id := by
  obtain ⟨t, ht, hid, -, hangs, -⟩ := hf.placed q e he
  cases hparent : e.parent with
  | none =>
    rw [hparent] at hangs
    rw [← hid, show t.info = p.tree.info from hangs, hroot]
    exact iff_of_true rfl rfl
  | some parent =>
    rw [hparent] at hangs
    obtain ⟨above, -, habove⟩ := hangs
    refine iff_of_false nofun fun hnode => ?_
    obtain rfl : t = p.tree :=
      LoadTree.eq_of_id_eq hp.ids ht (LoadTree.mem_subtrees_self _) (by rw [hid, hnode, hroot])
    rw [hp.root.2] at habove
    cases habove

/-- A record with a parent hangs below a record that comes before it and belongs to the parent of its node. -/
theorem below_of_parent (hnodes : ∀ u ∈ p.tree.subtrees, u.info ∈ p.nodes) (hf : p.Forest a)
    (he : a.log[q]? = some e) {parent : Nat} (hparent : e.parent = some parent) :
    ∃ above, a.records[parent]? = some above ∧ parent < q ∧
      ∃ n ∈ p.nodes, n.id = e.node ∧ n.parent = some above.node := by
  obtain ⟨t, ht, hid, -, hangs, hlt⟩ := hf.placed q e he
  rw [hparent] at hangs
  obtain ⟨above, habove, hnparent⟩ := hangs
  exact ⟨above, habove, hlt parent hparent, t.info, hnodes t ht, hid, hnparent⟩

/-- No record is emitted twice for the roots. -/
theorem nodup_emitted (hp : p.Staged) (hf : p.Forest a) :
    (a.roots.flatMap fun root => (p.tree.emit a root).2).Nodup := by
  have ha := hf.inStep
  refine List.nodup_flatMap.mpr ⟨fun root _ => LoadTree.nodup_emit hf hp.ids root, ?_⟩
  refine ha.nodup_roots.imp_of_mem fun {q q'} hq hq' hne => ?_
  obtain ⟨e, he, hnone⟩ := ha.mem_roots.mp hq
  obtain ⟨e', he', hnone'⟩ := ha.mem_roots.mp hq'
  refine List.disjoint_left.mpr fun x hx hx' => hne ?_
  exact hf.eq_of_leadsUp_of_leadsUp he he' (hnone.trans hnone'.symm)
    (LoadTree.leadsUp_of_mem_emit ha hx) (LoadTree.leadsUp_of_mem_emit ha hx')

/-- A forest over the tree of a plan is consistent. -/
theorem consistent (hp : p.Staged) (hroot : p.tree.info = p.root)
    (hnodes : ∀ u ∈ p.tree.subtrees, u.info ∈ p.nodes) (hf : p.Forest a) : p.Consistent a := by
  have ha := hf.inStep
  constructor
  case inStep => exact ha
  case listed => exact ⟨fun _ => ha.lt_of_mem_roots, fun _ _ _ => ha.lt_of_mem_childrenOf⟩
  case root =>
    intro q r hr hnode
    obtain ⟨e, he, rfl⟩ := ha.exists_log hr
    have hparent := (hf.parent_eq_none_iff hp hroot he).mpr hnode
    refine ⟨List.count_eq_one_of_mem ha.nodup_roots ((ha.mem_roots_iff he).mpr hparent),
      fun node parent hmem => ?_⟩
    have hsome := ((ha.mem_childrenOf_iff he).mp hmem).2
    rw [hparent] at hsome
    cases hsome
  case below =>
    intro q r hr hnode
    obtain ⟨e, he, rfl⟩ := ha.exists_log hr
    have hnot := mt (hf.parent_eq_none_iff hp hroot he).mp hnode
    obtain ⟨parent, hparent⟩ := Option.ne_none_iff_exists'.mp hnot
    obtain ⟨above, habove, hlt, hn⟩ := hf.below_of_parent hnodes he hparent
    refine ⟨mt (ha.mem_roots_iff he).mp hnot, parent, above, habove, hlt, hn, ?_, fun node other hmem => ?_⟩
    · exact List.count_eq_one_of_mem ha.nodup_childrenOf ((ha.mem_childrenOf_iff he).mpr ⟨rfl, hparent⟩)
    · obtain ⟨hnode', hother⟩ := (ha.mem_childrenOf_iff he).mp hmem
      exact ⟨hnode'.symm, Option.some.inj (hother.symm.trans hparent)⟩
  case seen => exact ⟨ha.positions_seen, hf.nodup_seen, fun _ => hf.existsUnique_seen⟩
  case named =>
    intro node parent key q hfound
    obtain ⟨e, he, rfl, rfl, -⟩ := hf.find?_iff.mp hfound
    refine ⟨e.toRecord, record_of_log he, rfl, (ha.mem_roots_iff he).symm, fun above => ?_⟩
    rw [ha.mem_childrenOf_iff he]
    exact (and_iff_right rfl).symm
  case columns =>
    intro r hr
    obtain ⟨e, he, rfl⟩ := ha.mem_log hr
    obtain ⟨q, hq⟩ := List.getElem?_of_mem he
    obtain ⟨t, ht, hid, hcolumns, -⟩ := hf.placed q e hq
    exact ⟨t.info, hnodes t ht, hid, hcolumns⟩
  case finish => exact ⟨List.map_congr_left fun root _ => (LoadTree.emit_fst ..).symm, hf.nodup_emitted hp⟩

end Plan.Forest

/-- Whatever calls a hydrator of a compiled plan has had, failed ones among them, its records form a forest
over the plan's tree, and every call only adds to its lists. -/
theorem compile_consistent (hcompile : s.compile req = .ok p) {h : Hydrator} (hr : p.Reaches h) :
    p.Consistent h.arena ∧ ∀ h', p.Step h h' → h.arena.Grows h'.arena := by
  have hp := Schema.compile_staged hcompile
  have hk := hr.keeps hp
  obtain ⟨root, d, -, hd, rfl⟩ := Schema.compile_eq_ok hcompile
  have hnodes : ∀ u ∈ (d.plan s root).tree.subtrees, u.info ∈ d.nodes :=
    fun u hu => hd.treeMatches.nodes.mem_iff.mp (LoadTree.info_mem_nodes hu)
  exact ⟨hk.forest.consistent hp d.info_tree hnodes, fun h' hstep => (hk.step hp hstep).2⟩

/-- Roles with their users: a role, a row that lacks the name of its role, and a user of the first role. -/
theorem forum_consistent :
    ∃ p h, forum.compile { Request.forModel "Role" with relations := ["users"], limit := none } = .ok p ∧
      p.Reaches h ∧ h.arena.roots = [0] ∧ h.arena.children = [((0, 1), [1])] ∧
      h.arena.seen = [((none, 0, "\"a\""), 0), ((some 0, 1, "\"c\""), 1)] ∧ p.Consistent h.arena ∧
      ∀ h', p.Step h h' → h.arena.Grows h'.arena := by
  let role : Row := .ofValues [("r0.uuid", .text "a"), ("r0.name", .text "editor")]
  let broken : Row := .ofValues [("r0.uuid", .text "b")]
  let user : Row := .ofValues [("u1.__link0", .text "a"), ("u1.uuid", .text "c"), ("u1.name", .text "Eve"),
    ("u1.role_uuid", .text "a")]
  have hcalls : ∃ p, forum.compile
        { Request.forModel "Role" with relations := ["users"], limit := none } = .ok p ∧
      ∃ b pending, p.batches[0]? = some b ∧
        p.prepareBatch b (p.absorbPrimary broken (p.absorbPrimary role .empty).2).2 = some pending ∧
        let a := (p.absorbBatch 0 b pending [user]
          (p.absorbPrimary broken (p.absorbPrimary role .empty).2).2).2
        a.roots = [0] ∧ a.children = [((0, 1), [1])] ∧
          a.seen = [((none, 0, "\"a\""), 0), ((some 0, 1, "\"c\""), 1)] :=
    ⟨_, by cbv, _, _, by cbv, by cbv, by cbv, by cbv, by cbv⟩
  obtain ⟨p, hcompile, b, pending, hb, hprepare, hroots, hchildren, hseen⟩ := hcalls
  have hreaches : p.Reaches ⟨(p.absorbBatch 0 b pending [user]
      (p.absorbPrimary broken (p.absorbPrimary role .empty).2).2).2, [(0, pending)]⟩ := by
    have hprepared := Plan.Step.prepare (h := ⟨(p.absorbPrimary broken
      (p.absorbPrimary role .empty).2).2, []⟩) hb
    rw [hprepare] at hprepared
    exact (((Relation.ReflTransGen.refl.tail (.primary rfl)).tail (.primary rfl)).tail hprepared).tail
      (.batch hb (List.mem_singleton_self _) rfl)
  exact ⟨p, _, hcompile, hreaches, hroots, hchildren, hseen, compile_consistent hcompile hreaches⟩

end EagerLoad
