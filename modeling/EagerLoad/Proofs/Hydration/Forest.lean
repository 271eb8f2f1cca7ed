import EagerLoad.Proofs.Hydration.Stages
import EagerLoad.Proofs.Loading.Keys

/-!
# Records form a forest

A hydrator may be called in any order: with rows of the primary statement, to prepare batches, and with
rows for batches that were prepared at some time before. Each call may fail on a missing column. Whatever
the calls, its records form a forest over the tree of the plan, in which no two records have the same
node, parent and key.
-/

namespace EagerLoad

open Arena

variable {p : Plan} {a a' : Arena} {t : LoadTree} {n : Node} {row : Row} {rows : List Row}
  {source : RowSource} {parent : Option Nat} {node q q' i : Nat} {key : String} {b : Batch}
  {pending : PendingBatch}

namespace Plan

/-- Below a record hangs what the plan hangs below the record's node, and below none the root. -/
def Hangs (p : Plan) (a : Arena) (n : Node) : Option Nat → Prop
  | none => n = p.tree.info
  | some q => ∃ r, a.records[q]? = some r ∧ n.parent = some r.node

theorem Hangs.mono (h : p.Hangs a n parent) (hgrows : a.Grows a') : p.Hangs a' n parent := by
  cases parent with
  | none => exact h
  | some q =>
    obtain ⟨r, hr, hparent⟩ := h
    exact ⟨r, hgrows.getElem? hr, hparent⟩

/-- The records of an arena form a forest over the tree of a plan. -/
structure Forest (p : Plan) (a : Arena) : Prop where
  inStep : a.InStep
  /-- A record belongs to a node of the plan, has its columns, and hangs below an earlier record. -/
  placed : ∀ (q : Nat) (e : KeyedRecord), a.log[q]? = some e → ∃ t ∈ p.tree.subtrees,
    t.info.id = e.node ∧ (∀ column ∈ t.info.columns, ∃ v, e.values.get? column = some v) ∧
      p.Hangs a t.info e.parent ∧ ∀ q', e.parent = some q' → q' < q
  /-- Records are told by node, parent and key. -/
  distinct : ∀ (q q' : Nat) (e e' : KeyedRecord), a.log[q]? = some e → a.log[q']? = some e' →
    e.node = e'.node → e.parent = e'.parent → e.key = e'.key → q = q'

namespace Forest

theorem empty (p : Plan) : p.Forest .empty :=
  ⟨inStep_empty, fun q e h => by simp [Arena.empty, log] at h,
    fun q q' e e' h => by simp [Arena.empty, log] at h⟩

/-- A record is found by its node, its parent and its key, and is the only one that is. -/
theorem find?_iff (hf : p.Forest a) : a.find? node parent key = some q ↔
    ∃ e, a.log[q]? = some e ∧ e.node = node ∧ e.parent = parent ∧ e.key = key := by
  constructor
  · exact hf.inStep.of_find?
  · rintro ⟨e, he, hnode, hparent, hkey⟩
    cases hq' : a.find? node parent key with
    | none =>
      exact absurd ⟨hnode, hparent, hkey⟩ (hf.inStep.of_find?_eq_none hq' (List.mem_of_getElem? he))
    | some q' =>
      obtain ⟨e', he', hnode', hparent', hkey'⟩ := hf.inStep.of_find? hq'
      rw [hf.distinct q q' e e' he he' (hnode.trans hnode'.symm) (hparent.trans hparent'.symm)
        (hkey.trans hkey'.symm)]

/-- A new record below one that is there. -/
theorem push (hf : p.Forest a) (ht : t ∈ p.tree.subtrees) (hangs : p.Hangs a t.info parent)
    (hnew : a.find? t.info.id parent key = none) (row : Row) :
    p.Forest (a.push (t.info.makes row parent key)) := by
  have hgrows := Grows.push a (t.info.makes row parent key)
  have hcases {q : Nat} {e : KeyedRecord}
      (h : (a.push (t.info.makes row parent key)).log[q]? = some e) :
      a.log[q]? = some e ∨ (q = a.records.length ∧ e = t.info.makes row parent key) := by
    rw [hf.inStep.log_push_getElem?] at h
    split at h
    · rename_i hq
      exact .inr ⟨hq, (Option.some.inj h).symm⟩
    · exact .inl h
  have hother {q : Nat} {e : KeyedRecord} (he : a.log[q]? = some e) :
      ¬(e.node = t.info.id ∧ e.parent = parent ∧ e.key = key) :=
    hf.inStep.of_find?_eq_none hnew (List.mem_of_getElem? he)
  constructor
  case inStep => exact hf.inStep.push _
  case placed =>
    intro q e he
    rcases hcases he with he | ⟨rfl, rfl⟩
    · obtain ⟨u, hu, hid, hcolumns, hangsAt, hlt⟩ := hf.placed q e he
      exact ⟨u, hu, hid, hcolumns, hangsAt.mono hgrows, hlt⟩
    · refine ⟨t, ht, rfl, fun column hcolumn => ⟨_, KeyMap.get?_ofList_map hcolumn⟩,
        hangs.mono hgrows, ?_⟩
      rintro q' rfl
      obtain ⟨r', hr', -⟩ := hangs
      exact (List.getElem?_eq_some_iff.mp hr').1
  case distinct =>
    intro q q' e e' he he' hnode hparent hkey
    rcases hcases he with he | ⟨rfl, rfl⟩ <;> rcases hcases he' with he' | ⟨rfl, rfl⟩
    · exact hf.distinct q q' e e' he he' hnode hparent hkey
    · exact absurd ⟨hnode, hparent, hkey⟩ (hother he)
    · exact absurd ⟨hnode.symm, hparent.symm, hkey.symm⟩ (hother he')
    · rfl

end Forest

end Plan

/-- Whatever becomes of it, absorbing a row at a node leaves the arena as it is, and then a record that
is returned is one that was found; or it adds a record that was not there. -/
theorem Node.absorb_cases {result : Except Error (Option Nat)}
    (h : n.absorb row parent a = (result, a')) :
    (a' = a ∧ ∀ q, result = .ok (some q) → ∃ key, a.find? n.id parent key = some q) ∨
      ∃ key, a.find? n.id parent key = none ∧ result = .ok (some a.records.length) ∧
        a' = a.push (n.makes row parent key) := by
  unfold Node.absorb at h
  split at h
  · cases h
    exact .inl ⟨rfl, by simp⟩
  · rename_i key hkey
    split at h
    · cases h
      exact .inl ⟨rfl, by simp⟩
    · split at h
      · rename_i position hposition
        cases h
        refine .inl ⟨rfl, fun q hq => ⟨key.identity, ?_⟩⟩
        cases hq
        exact hposition
      · rename_i hnone
        split at h
        · cases h
          exact .inl ⟨rfl, by simp⟩
        · rename_i values hvalues
          cases h
          exact .inr ⟨_, hnone, rfl, by rw [makes, Node.values_of_readColumns hvalues]⟩

namespace Plan.Forest

variable {result : Except Error Unit}

/-- Absorbing a row at a node keeps the forest, also where it fails. A record that is returned is one of the
node. -/
theorem absorbNode (hf : p.Forest a) (ht : t ∈ p.tree.subtrees) (hangs : p.Hangs a t.info parent)
    {found : Except Error (Option Nat)} (h : t.info.absorb row parent a = (found, a')) :
    p.Forest a' ∧ ∀ q, found = .ok (some q) → ∃ r, a'.records[q]? = some r ∧ r.node = t.info.id := by
  rcases Node.absorb_cases h with ⟨rfl, hfound⟩ | ⟨key, hnone, rfl, rfl⟩
  · refine ⟨hf, fun q hq => ?_⟩
    obtain ⟨key, hkey⟩ := hfound q hq
    obtain ⟨e, he, henode, -⟩ := hf.inStep.of_find? hkey
    exact ⟨e.toRecord, record_of_log he, henode⟩
  · refine ⟨hf.push ht hangs hnone row, fun q hq => ?_⟩
    cases hq
    exact ⟨_, record_of_log ((hf.inStep.log_push_getElem?).trans (if_pos rfl)), rfl⟩

/-- Folding a row keeps the forest, also where it fails. -/
theorem absorb (hp : p.Staged) (hf : p.Forest a) (ht : t ∈ p.tree.subtrees)
    (hangs : p.Hangs a t.info parent) (h : t.absorb row source parent a = (result, a')) :
    p.Forest a' := by
  induction t using LoadTree.induction generalizing parent a a' result with
  | node n children ih =>
    have hbelow : ∀ part ⊆ children, ∀ {q : Nat} {a a' : Arena} {result : Except Error Unit},
        p.Forest a → (∃ r, a.records[q]? = some r ∧ r.node = n.id) →
        LoadTree.absorbBelow row source q part a = (result, a') → p.Forest a' := by
      intro part
      induction part with
      | nil =>
        intro _ q a a' result hf _ h
        cases h
        exact hf
      | cons c rest ihrest =>
        intro hpart q a a' result hf hrecord h
        obtain ⟨hc, hrest⟩ := List.cons_subset.mp hpart
        have hchild : c ∈ (LoadTree.node n children).children := hc
        have hcsub := LoadTree.subtrees_trans ht (LoadTree.mem_subtrees_of_mem_children hchild)
        obtain ⟨r, hr, hrnode⟩ := hrecord
        have hcangs : p.Hangs a c.info (some q) := ⟨r, hr, by rw [hrnode, hp.parent _ ht c hchild]; rfl⟩
        unfold LoadTree.absorbBelow at h
        split at h
        · rename_i hcsource
          split at h
          · rename_i h₁
            cases h
            exact ih c hc hf hcsub hcangs h₁
          · rename_i h₁
            have hgrows := (LoadTree.absorb_extends hcsource h₁).grows
            exact ihrest hrest (ih c hc hf hcsub hcangs h₁) ⟨r, hgrows.getElem? hr, hrnode⟩ h
        · exact ihrest hrest hf ⟨r, hr, hrnode⟩ h
    unfold LoadTree.absorb at h
    split at h
    · rename_i h₁
      cases h
      exact (hf.absorbNode ht hangs h₁).1
    · rename_i h₁
      cases h
      exact (hf.absorbNode ht hangs h₁).1
    · rename_i q a₁ h₁
      obtain ⟨hf₁, hrecord⟩ := hf.absorbNode ht hangs h₁
      exact hbelow children (List.Subset.refl _) hf₁ (hrecord q rfl) h

/-- Folding a row under several parents keeps the forest. -/
theorem absorbUnder (hp : p.Staged) (hf : p.Forest a) (ht : t ∈ p.tree.subtrees)
    (hsource : t.info.source = source) {parents : List Nat}
    (hangs : ∀ q ∈ parents, p.Hangs a t.info (some q))
    (h : t.absorbUnder row source parents a = (result, a')) : p.Forest a' := by
  induction parents generalizing a with
  | nil =>
    cases h
    exact hf
  | cons parent rest ih =>
    have hfirst := hangs parent List.mem_cons_self
    unfold LoadTree.absorbUnder at h
    split at h
    · rename_i h₁
      cases h
      exact hf.absorb hp ht hfirst h₁
    · rename_i h₁
      have hgrows := (LoadTree.absorb_extends hsource h₁).grows
      exact ih (hf.absorb hp ht hfirst h₁)
        (fun q hq => (hangs q (List.mem_cons_of_mem _ hq)).mono hgrows) h

end Plan.Forest

/-- The parents for which a batch was prepared are records below which its node hangs. -/
def PendingBatch.Sound (p : Plan) (a : Arena) (b : Batch) (pending : PendingBatch) : Prop :=
  ∀ link, ∀ q ∈ pending.parentsOf link, ∃ r, a.records[q]? = some r ∧ p.parentOf b = some r.node

theorem PendingBatch.Sound.mono (h : pending.Sound p a b) (hgrows : a.Grows a') :
    pending.Sound p a' b := by
  intro link q hq
  obtain ⟨r, hr, hparent⟩ := h link q hq
  exact ⟨r, hgrows.getElem? hr, hparent⟩

/-- What is prepared is sound. -/
theorem Plan.sound_prepareBatch (h : p.prepareBatch b a = some pending) : pending.Sound p a b := by
  intro link q hq
  cases hparent : p.parentOf b with
  | none =>
    have hnone : p.prepareBatch b a = none := by
      unfold Plan.parentOf at hparent
      unfold Plan.prepareBatch
      cases hn : p.node? b.node with
      | none => rfl
      | some n =>
        rw [hn, Option.bind_some] at hparent
        simp [hparent]
    rw [hnone] at h
    cases h
  | some parent =>
    obtain ⟨hgroups, -⟩ := Plan.prepareBatch_eq_some hparent h
    rw [PendingBatch.parentsOf_eq hgroups] at hq
    obtain ⟨⟨key, q⟩, he, rfl⟩ := List.mem_map.mp hq
    obtain ⟨r, hr, rfl, -⟩ := Arena.mem_keyed.mp (List.mem_filter.mp he).1
    exact ⟨r, hr, rfl⟩

section Batches

variable (hp : p.Staged) (hb : p.batches[i]? = some b) {result : Except Error Unit}

include hp hb

/-- A row of a batch only adds records, and keeps the forest. -/
theorem Plan.Forest.absorbBatchRow (hf : p.Forest a) (hsound : pending.Sound p a b)
    (h : p.absorbBatchRow i b pending row a = (result, a')) : p.Forest a' ∧ a.Grows a' := by
  obtain ⟨m, hm, u, hu, hid, hsource, hfound, hparent⟩ := hp.batch hb
  have husub := LoadTree.subtrees_trans hm (LoadTree.mem_subtrees_of_mem_children hu)
  have hparentOf := Plan.parentOf_eq hfound
  unfold Plan.absorbBatchRow at h
  split at h
  · cases h
    exact ⟨hf, .refl _⟩
  · rename_i link hlink
    rw [← hid, LoadTree.find?_id hp.ids husub] at h
    dsimp only at h
    refine ⟨hf.absorbUnder hp husub hsource (fun q hq => ?_) h,
      (LoadTree.absorbUnder_extends hsource h).grows⟩
    obtain ⟨r, hr, hnode⟩ := hsound _ q hq
    exact ⟨r, hr, hparentOf.symm.trans hnode⟩

/-- Rows of a batch only add records, and keep the forest. -/
theorem Plan.Forest.absorbBatch (hf : p.Forest a) (hsound : pending.Sound p a b)
    (h : p.absorbBatch i b pending rows a = (result, a')) : p.Forest a' ∧ a.Grows a' := by
  induction rows generalizing a with
  | nil =>
    cases h
    exact ⟨hf, .refl _⟩
  | cons row rest ih =>
    unfold Plan.absorbBatch at h
    split at h
    · rename_i h₁
      cases h
      exact hf.absorbBatchRow hp hb hsound h₁
    · rename_i h₁
      obtain ⟨hf₁, hgrows⟩ := hf.absorbBatchRow hp hb hsound h₁
      obtain ⟨hf', hgrows'⟩ := ih hf₁ (hsound.mono hgrows) h
      exact ⟨hf', hgrows.trans hgrows'⟩

end Batches

/-- A hydrator: its records, and the batches that were prepared from them, each with its number. -/
structure Hydrator where
  arena : Arena
  prepared : List (Nat × PendingBatch)

/-- What a call makes of a hydrator of a plan, whether it succeeds or fails. -/
inductive Plan.Step (p : Plan) : Hydrator → Hydrator → Prop
  | primary {h : Hydrator} {row : Row} {result : Except Error Unit} {a : Arena} :
    p.absorbPrimary row h.arena = (result, a) → Step p h { h with arena := a }
  | prepare {h : Hydrator} {i : Nat} {b : Batch} : p.batches[i]? = some b →
    Step p h { h with
      prepared := h.prepared ++ ((p.prepareBatch b h.arena).map fun pending => (i, pending)).toList }
  /-- The rows may belong to a batch that was prepared before other calls. -/
  | batch {h : Hydrator} {i : Nat} {b : Batch} {pending : PendingBatch} {rows : List Row}
    {result : Except Error Unit} {a : Arena} : p.batches[i]? = some b → (i, pending) ∈ h.prepared →
    p.absorbBatch i b pending rows h.arena = (result, a) → Step p h { h with arena := a }

/-- The hydrators that calls lead to from a new one. -/
def Plan.Reaches (p : Plan) (h : Hydrator) : Prop :=
  Relation.ReflTransGen p.Step ⟨.empty, []⟩ h

/-- The records form a forest, and all batches that were prepared are sound. -/
structure Plan.Keeps (p : Plan) (h : Hydrator) : Prop where
  forest : p.Forest h.arena
  sound : ∀ i pending, (i, pending) ∈ h.prepared →
    ∃ b, p.batches[i]? = some b ∧ pending.Sound p h.arena b

/-- Every call only adds records, and keeps the forest. -/
theorem Plan.Keeps.step {h h' : Hydrator} (hp : p.Staged) (hk : p.Keeps h) (hstep : p.Step h h') :
    p.Keeps h' ∧ h.arena.Grows h'.arena := by
  -- What was prepared stays sound as records are added.
  have hkept {a : Arena} (hf : p.Forest a) (hgrows : h.arena.Grows a) :
      p.Keeps { h with arena := a } := by
    refine ⟨hf, fun i pending hmem => ?_⟩
    obtain ⟨b, hb, hsound⟩ := hk.sound i pending hmem
    exact ⟨b, hb, hsound.mono hgrows⟩
  cases hstep with
  | primary habsorb =>
    have hgrows := (LoadTree.absorb_extends hp.root.1 habsorb).grows
    have hangs : p.Hangs h.arena p.tree.info none := rfl
    exact ⟨hkept (hk.forest.absorb hp (LoadTree.mem_subtrees_self _) hangs habsorb) hgrows, hgrows⟩
  | @prepare i b hb =>
    refine ⟨⟨hk.forest, fun j pending hmem => ?_⟩, .refl _⟩
    rcases List.mem_append.mp hmem with hmem | hmem
    · exact hk.sound j pending hmem
    · obtain ⟨pending', hprepare, heq⟩ := Option.map_eq_some_iff.mp (Option.mem_toList.mp hmem)
      cases heq
      exact ⟨b, hb, Plan.sound_prepareBatch hprepare⟩
  | @batch i b pending rows result a hb hmem habsorb =>
    obtain ⟨b', hb', hsound⟩ := hk.sound i pending hmem
    obtain rfl := Option.some.inj (hb.symm.trans hb')
    obtain ⟨hf, hgrows⟩ := hk.forest.absorbBatch hp hb hsound habsorb
    exact ⟨hkept hf hgrows, hgrows⟩

/-- Whatever the calls, the records form a forest. -/
theorem Plan.Reaches.keeps {h : Hydrator} (hp : p.Staged) (hr : p.Reaches h) : p.Keeps h := by
  induction hr with
  | refl => exact ⟨.empty p, fun i pending hmem => absurd hmem List.not_mem_nil⟩
  | tail _ hstep ih => exact (ih.step hp hstep).1

end EagerLoad
