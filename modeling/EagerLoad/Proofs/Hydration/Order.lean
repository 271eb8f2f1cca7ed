import EagerLoad.Proofs.Loading.Eager
import EagerLoad.Proofs.Plan.Batches

/-!
# Batches are loaded in order

A load prepares each batch once, in order of position. Records of a statement are only made while its rows
are folded, and the statement of a parent comes before the batch below it. So when a batch is prepared, all
records below which it is to be loaded are there. They are asked for if the batch names the node that opened
it. If it names a node that was joined into it, it is passed over and its collection is missed.
-/

namespace EagerLoad

open Sql Arena

/-- Where a load stands: its records, and the position of the batch that it prepares next. -/
structure LoadState where
  arena : Arena
  next : Nat

namespace Plan

/-- A step of a load: a batch is passed over, or it is put and whatever comes back is folded. Where folding
fails, a load stops. -/
inductive Advances (p : Plan) : LoadState → LoadState → Prop
  | passed {l : LoadState} {b : Batch} : p.batches[l.next]? = some b →
    p.prepareBatch b l.arena = none → Advances p l ⟨l.arena, l.next + 1⟩
  | put {l : LoadState} {b : Batch} {pending : PendingBatch} {rows : List Row}
    {result : Except Error Unit} {a : Arena} : p.batches[l.next]? = some b →
    p.prepareBatch b l.arena = some pending → p.absorbBatch l.next b pending rows l.arena = (result, a) →
    Advances p l ⟨a, l.next + 1⟩

/-- Where loads come by, whatever comes back for their statements. -/
def Visits (p : Plan) (l : LoadState) : Prop :=
  ∃ rows result a, p.absorbPrimaries rows .empty = (result, a) ∧
    Relation.ReflTransGen p.Advances ⟨a, 0⟩ l

end Plan

variable {p : Plan} {a a' : Arena} {t m u : LoadTree} {row : Row} {rows : List Row} {i : Nat} {b : Batch}
  {pending : PendingBatch} {l l' : LoadState} {result : Except Error Unit}

/-- What is added to an arena are no parents, if it is of other nodes. -/
theorem Arena.Extends.keyed_eq {kind : Nat → Prop} {node : Nat} (h : a.Extends a' kind)
    (hkind : ¬ kind node) (columns : List String) : a'.keyed node columns = a.keyed node columns := by
  obtain ⟨new, hnew, hnewkind⟩ := h.exists_records
  have hnone : (new.zipIdx a.records.length).filterMap (fun e =>
      if e.1.node = node then (completeKey e.1.values columns).map (·, e.2) else none) = [] := by
    refine List.filterMap_eq_nil_iff.mpr fun e he => if_neg fun hnode => hkind ?_
    exact hnode ▸ hnewkind e.1 (List.fst_mem_of_mem_zipIdx he)
  rw [Arena.keyed, hnew, List.zipIdx_append, List.filterMap_append, Nat.zero_add, hnone, List.append_nil]
  rfl

/-- Whatever becomes of them, primary rows add records of nodes that are read from the primary statement. -/
theorem Plan.absorbPrimaries_extends (hp : p.Staged) (h : p.absorbPrimaries rows a = (result, a')) :
    a.Extends a' (p.tree.ReadFrom .primary) := by
  induction rows generalizing a with
  | nil =>
    cases h
    exact .refl ..
  | cons row rest ih =>
    unfold Plan.absorbPrimaries at h
    split at h
    · rename_i h₁
      cases h
      exact LoadTree.absorb_extends hp.root.1 h₁
    · rename_i h₁
      exact (LoadTree.absorb_extends hp.root.1 h₁).trans (ih h)

/-- Whatever becomes of them, rows of a batch add records of nodes that are read from the batch. -/
theorem Plan.absorbBatch_extends (hp : p.Staged) (hb : p.batches[i]? = some b)
    (h : p.absorbBatch i b pending rows a = (result, a')) :
    a.Extends a' (p.tree.ReadFrom (.batch i)) := by
  obtain ⟨u, hu, hid, hsource⟩ := hp.named i b hb
  have hrow {row : Row} {a a' : Arena} {result : Except Error Unit}
      (h : p.absorbBatchRow i b pending row a = (result, a')) :
      a.Extends a' (p.tree.ReadFrom (.batch i)) := by
    unfold Plan.absorbBatchRow at h
    split at h
    · cases h
      exact .refl ..
    · rw [← hid, LoadTree.find?_id hp.ids hu] at h
      refine (LoadTree.absorbUnder_extends hsource h).mono ?_
      rintro id ⟨v, hv, hread⟩
      exact ⟨v, LoadTree.subtrees_trans hu hv, hread⟩
  induction rows generalizing a with
  | nil =>
    cases h
    exact .refl ..
  | cons row rest ih =>
    unfold Plan.absorbBatch at h
    split at h
    · rename_i h₁
      cases h
      exact hrow h₁
    · rename_i h₁
      exact (hrow h₁).trans (ih h)

namespace Plan

/-- A step goes on to the next batch, and adds records of nodes that are read from this one. -/
theorem Advances.extends (hp : p.Staged) (h : p.Advances l l') :
    l'.next = l.next + 1 ∧ l.arena.Extends l'.arena (p.tree.ReadFrom (.batch l.next)) := by
  cases h with
  | passed => exact ⟨rfl, .refl ..⟩
  | put hb _ habsorb => exact ⟨rfl, absorbBatch_extends hp hb habsorb⟩

/-- Steps add records of nodes that are read from the batch that comes next, or from later ones. -/
theorem extends_of_advances (hp : p.Staged) (h : Relation.ReflTransGen p.Advances l l') :
    l.next ≤ l'.next ∧ l.arena.Extends l'.arena (p.ReadSince (l.next + 1)) := by
  induction h with
  | refl => exact ⟨le_refl _, .refl ..⟩
  | tail _ hstep ih =>
    obtain ⟨hnext, hext⟩ := hstep.extends hp
    refine ⟨by omega, ih.2.trans (hext.mono ?_)⟩
    rintro id ⟨u, hu, hid, hsource⟩
    exact ⟨u, hu, hid, by rw [hsource, RowSource.position]; omega⟩

/-- After a batch is passed over, steps add records of nodes that are read from later batches. -/
theorem extends_of_advances_passed (hp : p.Staged) (hb : p.batches[l.next]? = some b)
    (hnone : p.prepareBatch b l.arena = none) (h : Relation.ReflTransGen p.Advances l l') :
    l.arena.Extends l'.arena (p.ReadSince (l.next + 2)) := by
  rcases h.cases_head with rfl | ⟨l₁, hstep, hrest⟩
  · exact .refl ..
  · cases hstep with
    | passed => exact (extends_of_advances hp hrest).2
    | put hb' hsome =>
      obtain rfl := Option.some.inj (hb.symm.trans hb')
      simp [hnone] at hsome

/-- A load has only records of nodes that are read from statements before the batch that comes next. -/
theorem Visits.position_le (hp : p.Staged) (h : p.Visits l) {r : Record} (hr : r ∈ l.arena.records) :
    ∃ u ∈ p.tree.subtrees, u.info.id = r.node ∧ u.info.source.position ≤ l.next := by
  obtain ⟨rows, result, a, hprimary, hsteps⟩ := h
  induction hsteps with
  | refl =>
    obtain ⟨new, hnew, hkind⟩ := (absorbPrimaries_extends hp hprimary).exists_records
    obtain ⟨u, hu, hid, hsource⟩ := hkind r (by simpa [Arena.empty, hnew] using hr)
    exact ⟨u, hu, hid, by rw [hsource]; exact le_refl _⟩
  | tail _ hstep ih =>
    obtain ⟨hnext, hext⟩ := hstep.extends hp
    obtain ⟨new, hnew, hkind⟩ := hext.exists_records
    rcases List.mem_append.mp (hnew ▸ hr) with hr | hr
    · obtain ⟨u, hu, hid, hle⟩ := ih hr
      exact ⟨u, hu, hid, by omega⟩
    · obtain ⟨u, hu, hid, hsource⟩ := hkind r hr
      exact ⟨u, hu, hid, by rw [hsource, RowSource.position]; omega⟩

/-- A node that is read from a later statement than those before a batch has no records yet. -/
theorem Visits.node_ne (hp : p.Staged) (h : p.Visits l) (hm : m ∈ p.tree.subtrees)
    (hlt : l.next < m.info.source.position) {r : Record} (hr : r ∈ l.arena.records) :
    r.node ≠ m.info.id := by
  intro hnode
  obtain ⟨u, hu, hid, hle⟩ := h.position_le hp hr
  obtain rfl := LoadTree.eq_of_id_eq hp.ids hu hm (hid.trans hnode)
  omega

/-- A run of the batches from some position on consists of steps. -/
theorem Runs.advances {batches : List (Batch × Nat)} {transcript : Transcript} {next : Nat}
    (h : p.Runs batches a transcript a') (hbatches : batches = p.batches.zipIdx.drop next)
    (hnext : next ≤ p.batches.length) :
    Relation.ReflTransGen p.Advances ⟨a, next⟩ ⟨a', p.batches.length⟩ := by
  induction h generalizing next with
  | done =>
    have hlength := congrArg List.length hbatches
    simp only [List.length_nil, List.length_drop, List.length_zipIdx] at hlength
    obtain rfl : next = p.batches.length := by omega
    exact .refl
  | passed hnone _ ih =>
    obtain ⟨hlt, rfl, hb, hrest⟩ := of_cons_eq_drop_zipIdx hbatches
    exact .head (.passed hb hnone) (ih hrest hlt)
  | put hsome hfold _ ih =>
    obtain ⟨hlt, rfl, hb, hrest⟩ := of_cons_eq_drop_zipIdx hbatches
    exact .head (.put hb hsome hfold) (ih hrest hlt)

/-- A load that succeeds comes by its batches one after the other, and returns the last records. -/
theorem visits_of_play_load {statement : Select} {responses unused : List Response} {records : List Json}
    {asked : List (Call × Query)}
    (h : (p.load statement).run.play responses = ⟨.ok records, asked, unused⟩) :
    ∃ a, p.Visits ⟨a, p.batches.length⟩ ∧ records = p.finish a := by
  obtain ⟨rows, transcript, a, a', hfold, hruns, hrecords, -⟩ := Plan.play_load.mp h
  exact ⟨a', ⟨rows, _, a, hfold, hruns.advances List.drop_zero.symm (Nat.zero_le _)⟩, hrecords⟩

/-- What becomes of a batch that a load prepares next at `l`, until the load is at `l'`. -/
structure Settles (p : Plan) (b : Batch) (l l' : LoadState) : Prop where
  /-- No further record of the node below whose records the batch is loaded is made. -/
  parents : ∀ parent, p.parentOf b = some parent → ∀ (q : Nat) (r : Record),
    l'.arena.records[q]? = some r → r.node = parent → l.arena.records[q]? = some r
  /-- Preparing the batch again makes no difference. -/
  prepare : p.prepareBatch b l'.arena = p.prepareBatch b l.arena
  /-- Nor is there a further record of the node below which the batch was opened. -/
  opened : ∀ m n, p.Opens l.next b m n → ∀ (q : Nat) (r : Record),
    l'.arena.records[q]? = some r → r.node = m.id → l.arena.records[q]? = some r
  /-- A batch that names the node which opened it is put for all records below which it was opened. -/
  collected : ∀ m n, p.Opens l.next b m n → b.node = n.id → ∀ (q : Nat) (r : Record) (key : List Value),
    l'.arena.records[q]? = some r → r.node = m.id → completeKey r.values b.parentColumns = some key →
    ∃ pending, p.prepareBatch b l.arena = some pending ∧ q ∈ pending.parentsOf (identities key)
  /-- A batch that names another node is never put. -/
  missed : ∀ m n, p.Opens l.next b m n → b.node ≠ n.id → p.prepareBatch b l.arena = none

/-- A batch that is to be loaded below nodes of the same statement is passed over. -/
theorem Visits.prepareBatch_eq_none (hp : p.Staged) (hvisits : p.Visits l) (hm : m ∈ p.tree.subtrees)
    (hparent : p.parentOf b = some m.info.id) (hsource : m.info.source = .batch l.next) :
    p.prepareBatch b l.arena = none := by
  cases hprepare : p.prepareBatch b l.arena with
  | none => rfl
  | some pending =>
    obtain ⟨r, hr, hnode⟩ := exists_parent_of_prepareBatch hparent hprepare
    have hlt : l.next < m.info.source.position := by rw [hsource, RowSource.position]; omega
    exact absurd hnode (hvisits.node_ne hp hm hlt hr)

/-- No more records are made of the node below whose records a batch is loaded. -/
theorem Visits.extends_parents (hp : p.Staged) (hvisits : p.Visits l) (hb : p.batches[l.next]? = some b)
    (hsteps : Relation.ReflTransGen p.Advances l l') :
    ∃ m ∈ p.tree.subtrees, ∃ u ∈ m.children, u.info.id = b.node ∧ u.info.source = .batch l.next ∧
      p.parentOf b = some m.info.id ∧
      ∃ position, m.info.source.position < position ∧ l.arena.Extends l'.arena (p.ReadSince position) := by
  obtain ⟨m, hm, u, hu, hid, hsource, hfound, hparent⟩ := hp.batch hb
  have hparentOf := (parentOf_eq hfound).trans hparent
  refine ⟨m, hm, u, hu, hid, hsource, hparentOf, ?_⟩
  rcases hp.source m hm u hu with hsame | ⟨j, hj, hle⟩
  · have hmsource : m.info.source = .batch l.next := hsame.symm.trans hsource
    have hnone := hvisits.prepareBatch_eq_none hp hm hparentOf hmsource
    refine ⟨l.next + 2, ?_, extends_of_advances_passed hp hb hnone hsteps⟩
    rw [hmsource, RowSource.position]
    omega
  · obtain rfl := RowSource.batch.inj (hsource.symm.trans hj)
    exact ⟨l.next + 1, by omega, (extends_of_advances hp hsteps).2⟩

/-- A node that is read from an earlier statement is none of those that are read from some position on. -/
theorem Staged.not_readSince (hp : p.Staged) (hm : m ∈ p.tree.subtrees) {position : Nat}
    (hlt : m.info.source.position < position) : ¬ p.ReadSince position m.info.id := by
  rintro ⟨v, hv, hid, hle⟩
  obtain rfl := LoadTree.eq_of_id_eq hp.ids hv hm hid
  omega

/-- A batch that is to be loaded below a node of another statement was opened below it, by the node that it
names. -/
theorem LaidOut.opens_of_source_ne (hp : p.Staged) (hlaid : p.LaidOut)
    (htree : ∀ n ∈ p.nodes, ∃ t ∈ p.tree.subtrees, t.info = n) (hb : p.batches[i]? = some b)
    (hm : m ∈ p.tree.subtrees) (hparent : p.parentOf b = some m.info.id)
    (hsource : m.info.source ≠ .batch i) : ∃ n, p.Opens i b m.info n ∧ b.node = n.id := by
  -- Nodes are told by their numbers.
  have hsame {n : Node} (hn : n ∈ p.nodes) (hid : n.id = m.info.id) : n = m.info := by
    obtain ⟨t, ht, rfl⟩ := htree n hn
    rw [LoadTree.eq_of_id_eq hp.ids ht hm hid]
  obtain ⟨k, hk, hkid, hksource, -⟩ := hlaid.named i b hb
  obtain ⟨t, ht, rfl⟩ := htree k (List.mem_cons_of_mem _ hk)
  have hkparent : t.info.parent = some m.info.id :=
    (parentOf_eq (hkid ▸ hp.found t ht)).symm.trans hparent
  have hkstrategy : t.info.strategy = .batched := by
    by_contra hjoined
    obtain ⟨m', hm', hkm, hread⟩ := hlaid.joined _ hk hjoined
    obtain rfl := hsame hm' (Option.some.inj (hkm.symm.trans hkparent))
    exact hsource (hread.symm.trans hksource)
  obtain ⟨m', n, hopens⟩ := hlaid.opened i b hb
  obtain rfl := hopens.only _ hk hkstrategy hksource
  obtain rfl := hsame hopens.parent.1 (Option.some.inj (hopens.parent.2.symm.trans hkparent))
  exact ⟨_, hopens, hkid.symm⟩

/-- Whatever comes back in a load, each batch settles when it is prepared. -/
theorem Visits.settles (hp : p.Staged) (hlaid : p.LaidOut)
    (htree : ∀ n ∈ p.nodes, ∃ t ∈ p.tree.subtrees, t.info = n) (hvisits : p.Visits l)
    (hb : p.batches[l.next]? = some b) (hsteps : Relation.ReflTransGen p.Advances l l') :
    p.Settles b l l' := by
  obtain ⟨m, hm, u, hu, hid, hsource, hparentOf, position, hlt, hext⟩ :=
    hvisits.extends_parents hp hb hsteps
  have hkind := hp.not_readSince hm hlt
  -- Nodes are told by their numbers.
  have hsame {n : Node} (hn : n ∈ p.nodes) {t : LoadTree} (ht : t ∈ p.tree.subtrees)
      (h : n.id = t.info.id) : n = t.info := by
    obtain ⟨t', ht', rfl⟩ := htree n hn
    rw [LoadTree.eq_of_id_eq hp.ids ht' ht h]
  have husub := LoadTree.subtrees_trans hm (LoadTree.mem_subtrees_of_mem_children hu)
  constructor
  case parents =>
    intro parent hparent q r hr hnode
    obtain rfl := Option.some.inj (hparentOf.symm.trans hparent)
    exact hext.getElem?_of_not hr (hnode ▸ hkind)
  case prepare =>
    rw [Plan.prepareBatch_eq hparentOf, Plan.prepareBatch_eq hparentOf, hext.keyed_eq hkind]
  case opened =>
    intro m' n hopens q r hr hnode
    obtain ⟨t, ht, rfl⟩ := htree m' hopens.parent.1
    have hnot := hp.not_readSince ht (Nat.lt_succ_of_le hopens.earlier)
    exact (extends_of_advances hp hsteps).2.getElem?_of_not hr (hnode ▸ hnot)
  case collected =>
    intro m' n hopens hnamed q r key hr hnode hkey
    obtain rfl := hsame (List.mem_cons_of_mem _ hopens.node) husub (hnamed.symm.trans hid.symm)
    have hparent := (hp.parent m hm u hu).symm.trans hopens.parent.2
    obtain rfl := hsame hopens.parent.1 hm (Option.some.inj hparent).symm
    have hr' := hext.getElem?_of_not hr (hnode ▸ hkind)
    have hkeyed : (key, q) ∈ l.arena.keyed m.info.id b.parentColumns :=
      Arena.mem_keyed.mpr ⟨r, hr', hnode, hkey⟩
    have hprepare := Plan.prepareBatch_eq (a := l.arena) hparentOf
    rw [if_neg (List.ne_nil_of_mem hkeyed)] at hprepare
    refine ⟨_, hprepare, ?_⟩
    rw [PendingBatch.parentsOf_eq rfl]
    exact List.mem_map_of_mem (List.mem_filter.mpr ⟨hkeyed, by simp⟩)
  case missed =>
    intro m' n hopens hnamed
    refine hvisits.prepareBatch_eq_none hp hm hparentOf ?_
    by_contra hmsource
    obtain ⟨n', hopens', hid'⟩ := hlaid.opens_of_source_ne hp htree hb hm hparentOf hmsource
    obtain rfl := hopens.only n' hopens'.node hopens'.strategy hopens'.source
    exact hnamed hid'

end Plan

/-- The batches of a compiled plan are laid out so that they can be loaded in order. Whatever comes back, no
record below which a batch is to be loaded is made after the batch was prepared. But a batch into which a
node was joined names that node and is never put. -/
theorem compile_settles {s : Schema} {r : Request} {entities : List Entity}
    {declarations : List Declaration} (hbuild : Schema.build entities declarations = .ok s)
    (hcompile : s.compile r = .ok p) :
    p.LaidOut ∧
      (∀ l l' b, p.Visits l → p.batches[l.next]? = some b → Relation.ReflTransGen p.Advances l l' →
        p.Settles b l l') ∧
      ∀ statement responses records asked unused,
        (p.load statement).run.play responses = ⟨.ok records, asked, unused⟩ →
          ∃ a, p.Visits ⟨a, p.batches.length⟩ ∧ records = p.finish a := by
  have hp := Schema.compile_staged hcompile
  have hlaid := Schema.compile_laidOut hbuild hcompile
  refine ⟨hlaid, fun l l' b hvisits hb hsteps => ?_, fun _ _ _ _ _ hload => Plan.visits_of_play_load hload⟩
  exact hvisits.settles hp hlaid (fun n hn => Schema.compile_mem_tree hcompile hn) hb hsteps

/-- Users with their posts, which are loaded in a batch. -/
theorem forum_settles :
    ∃ p, forum.compile { Request.forModel "User" with relations := ["posts"], limit := none } = .ok p ∧
      p.LaidOut ∧
      (∀ l l' b, p.Visits l → p.batches[l.next]? = some b → Relation.ReflTransGen p.Advances l l' →
        p.Settles b l l') ∧
      ∀ statement responses records asked unused,
        (p.load statement).run.play responses = ⟨.ok records, asked, unused⟩ →
          ∃ a, p.Visits ⟨a, p.batches.length⟩ ∧ records = p.finish a := by
  have hcompile : ∃ p, forum.compile
      { Request.forModel "User" with relations := ["posts"], limit := none } = .ok p := ⟨_, by cbv⟩
  obtain ⟨p, hp⟩ := hcompile
  exact ⟨p, hp, compile_settles forum_build hp⟩

/-- Users with the authors of their posts. The batch of the posts names the author, which is joined into it,
and whose parent is read from the batch itself. So the batch is passed over, though there is a user. -/
theorem forum_batch_names_author :
    ∃ p, forum.compile { Request.forModel "User" with relations := ["author"], limit := none } = .ok p ∧
      ∃ b author posts, p.batches[0]? = some b ∧ p.node? b.node = some author ∧
        author.strategy = .joined ∧ author.source = .batch 0 ∧
        p.node? 1 = some posts ∧ posts.strategy = .batched ∧
        author.parent = some posts.id ∧ posts.source = .batch 0 ∧
        ∃ a user, p.absorbPrimaries [.ofValues [("u0.uuid", .text "b"),
            ("u0.name", .text "Eve"), ("u0.role_uuid", .null)]] .empty = (.ok (), a) ∧ a.records = [user] ∧
          completeKey user.values b.parentColumns = some [.text "b"] ∧ p.prepareBatch b a = none :=
  ⟨_, by cbv, _, _, _, by cbv, by cbv, by cbv, by cbv, by cbv, by cbv, by cbv, by cbv, _, _, by cbv,
    by cbv, by cbv, by cbv⟩

end EagerLoad
