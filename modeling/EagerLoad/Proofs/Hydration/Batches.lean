import EagerLoad.Proofs.Hydration.Absorb
import EagerLoad.Proofs.Hydration.KeyGroups
import EagerLoad.Proofs.Plan.Sources

/-!
# Folding the rows of a batch keeps the groups

A row of a batch is folded under every parent record whose key it links to. If the arena holds the groups
of the rows so far, it then holds the groups with this row in the batch as well. A batch that is prepared
is opened by the node that it names: no other node of it has records below which to load.
-/

namespace EagerLoad

open Arena

variable {p : Plan} {answers answers' : Nat → List Row} {a a' : Arena} {feed : Feed} {t m u : LoadTree}
  {row : Row} {source : RowSource} {i : Nat} {b : Batch}

/-- The parents of a link are the records with a key of these identities. -/
theorem PendingBatch.parentsOf_eq {pending : PendingBatch} {keyed : List (List Value × Nat)}
    (h : pending.parents = KeyGroup.listing (keyGroups keyed)) (link : List String) :
    pending.parentsOf link = (withIdentities link keyed).map (·.2) := by
  have hparents : pending.parents = (keyed.map fun e => identities e.1).eraseDups.map fun k =>
      (k, (withIdentities k keyed).map (·.2)) := by
    rw [h, KeyGroup.listing, keyGroups, List.map_map]
    rfl
  rw [PendingBatch.parentsOf, hparents]
  by_cases hlink : link ∈ keyed.map fun e => identities e.1
  · exact Listing.under_map (f := fun k => (withIdentities k keyed).map (·.2)) (List.mem_eraseDups.mpr hlink)
  · have hnil : withIdentities link keyed = [] := by
      refine List.filter_eq_nil_iff.mpr fun e he heq => hlink ?_
      exact List.mem_map.mpr ⟨e, he, of_decide_eq_true heq⟩
    rw [hnil, Listing.under_eq_nil]
    · rfl
    · simpa [Function.comp_def] using hlink

/-- Folding a row under parents adds records of nodes that are read from its statement. -/
theorem LoadTree.absorbUnder_extends {parents : List Nat} {result : Except Error Unit}
    (hsource : t.info.source = source) (h : t.absorbUnder row source parents a = (result, a')) :
    a.Extends a' (t.ReadFrom source) := by
  induction parents generalizing a with
  | nil =>
    cases h
    exact .refl ..
  | cons parent rest ih =>
    unfold absorbUnder at h
    split at h
    · rename_i h₁
      cases h
      exact absorb_extends hsource h₁
    · rename_i h₁
      exact (absorb_extends hsource h₁).trans (ih h)

/-- Folding a row under several parents adds it to the rows that belong below each of them. -/
theorem Arena.Grouped.absorbUnder {parents : List Nat} (hparents : parents.Nodup) (hids : t.ids.Nodup)
    (hsource : t.info.source = source)
    (hanswers : ∀ u ∈ t.subtrees, ∀ i, u.info.source = .batch i → u.info.source ≠ source →
      answers i = [])
    (hg : Grouped p answers a t feed) (h : t.absorbUnder row source parents a = (.ok (), a')) :
    Grouped p answers a' t (feed.add (parents.map some) row) := by
  induction parents generalizing a feed with
  | nil =>
    cases h
    have hsame : feed.add ([].map some) row = feed := by
      funext parent
      simp [Feed.add]
    rwa [hsame]
  | cons parent rest ih =>
    obtain ⟨hparent, hrest⟩ := List.nodup_cons.mp hparents
    unfold LoadTree.absorbUnder at h
    split at h
    · cases h
    · rename_i a₁ h₁
      have hadd : (feed.add [some parent] row).add (rest.map some) row =
          feed.add ((parent :: rest).map some) row := by
        funext parent'
        by_cases hp : parent' = some parent
        · subst hp
          simp [Feed.add, hparent]
        · simp [Feed.add, hp]
      rw [← hadd]
      exact ih hrest (hg.absorb hids hsource hanswers h₁) h

/-- What belongs to the node that opens a batch after a row was added to the batch: the row belongs below
the records to which it links. -/
theorem Arena.GroupedAt.feedBelow_addBatchRow {n child : Node} {parents : List Nat}
    (hg : a.GroupedAt n feed) (hb : p.batches[i]? = some b) (hsource : child.source = .batch i)
    (hopened : child.source ≠ n.source) (hrow : answers' i = answers i ++ [row])
    (hparents : ∀ q, q ∈ parents ↔ ∃ r, a.records[q]? = some r ∧ r.node = n.id ∧
      ∃ key, completeKey r.values b.parentColumns = some key ∧ b.linkOf row = identities key) :
    a.feedBelow p answers' n feed child =
      (a.feedBelow p answers n feed child).add (parents.map some) row := by
  funext parent
  cases parent with
  | none => simp [feedBelow, Feed.add]
  | some q =>
    have hq : some q ∈ parents.map some ↔ q ∈ parents := by simp
    simp only [Feed.add, hq]
    by_cases hrecord : ∃ e, a.log[q]? = some e ∧ e.node = n.id
    · obtain ⟨e, he, hnode⟩ := hrecord
      have hvalues := hg.values e (List.mem_of_getElem? he) hnode
      rw [feedBelow_of_record he hnode, feedBelow_of_record he hnode,
        Plan.rowsBelow_of_batch hopened hsource hb, Plan.rowsBelow_of_batch hopened hsource hb,
        ← hvalues, hrow, Batch.linked_append]
      refine congrArg (b.linked e.values (answers i) ++ ·) ?_
      have hmem : q ∈ parents ↔
          ∃ key, completeKey e.values b.parentColumns = some key ∧ b.linkOf row = identities key := by
        rw [hparents]
        constructor
        · rintro ⟨r, hr, -, hkey⟩
          obtain rfl := Option.some.inj ((record_of_log he).symm.trans hr)
          exact hkey
        · exact fun hkey => ⟨e.toRecord, record_of_log he, hnode, hkey⟩
      cases hkey : completeKey e.values b.parentColumns with
      | none => simp [Batch.linked_of_none hkey, hmem, hkey]
      | some key => simp [Batch.linked_singleton hkey, hmem, hkey]
    · have hnone : ∀ e, a.log[q]? = some e → e.node ≠ n.id :=
        fun e he hnode => hrecord ⟨e, he, hnode⟩
      have hnot : q ∉ parents := by
        intro hq
        obtain ⟨r, hr, hnode, -⟩ := (hparents q).mp hq
        obtain ⟨e, he, rfl⟩ := hg.inStep.exists_log hr
        exact hnone e he hnode
      rw [feedBelow_of_not hnone, feedBelow_of_not hnone, if_neg hnot]
      rfl

/-- The row of a batch joins the rows of the batch, where it is folded under the records to which it
links. -/
theorem Arena.Grouped.addBatchRow {parents : List Nat} (hp : p.Staged) (hb : p.batches[i]? = some b)
    (hm : m ∈ p.tree.subtrees) (hu : u ∈ m.children) (hsource : u.info.source = .batch i)
    (hopened : u.info.source ≠ m.info.source) (hanswers : ∀ j, j ≠ i → answers j = answers' j)
    (hrow : answers' i = answers i ++ [row])
    (hparents : ∀ q, q ∈ parents ↔ ∃ r, a.records[q]? = some r ∧ r.node = m.info.id ∧
      ∃ key, completeKey r.values b.parentColumns = some key ∧ b.linkOf row = identities key)
    (hext : a.Extends a' (· ∈ u.ids))
    (hfold : ∀ feed, Grouped p answers a u feed →
      Grouped p answers a' u (feed.add (parents.map some) row))
    (ht : t ∈ p.tree.subtrees) (htids : t.info.id ∉ u.ids) (hg : Grouped p answers a t feed) :
    Grouped p answers' a' t feed := by
  have husub := LoadTree.subtrees_trans hm (LoadTree.mem_subtrees_of_mem_children hu)
  -- Only one node opens the batch.
  have hother : ∀ v ∈ p.tree.subtrees, ∀ c ∈ v.children, c ≠ u → c.info.source ≠ v.info.source →
      ∀ j, c.info.source = .batch j → answers j = answers' j := by
    intro v hv c hc hcu hne j hj
    refine hanswers j fun hji => hcu ?_
    exact hp.owner v hv c hc m hm u hu hne hopened (by rw [hj, hji, hsource])
  induction t using LoadTree.induction generalizing feed with
  | node n children ih =>
    have htop : a.GroupedAt n feed := hg.groupedAt
    refine .node (hext.groupedAt htids htop) fun c hc => ?_
    have hcg : Grouped p answers a c (a.feedBelow p answers n feed c.info) := hg.children hc
    have hkept : a'.feedBelow p answers' n feed c.info = a.feedBelow p answers' n feed c.info :=
      hext.feedBelow_eq htop.inStep htids
    rw [hkept]
    by_cases hcu : c = u
    · subst hcu
      have htm := hp.parent_unique ht hm hc hu
      subst htm
      rw [htop.feedBelow_addBatchRow hb hsource hopened hrow hparents]
      apply (hfold _ hcg).congr
      intro v hv e he
      apply hother v (LoadTree.subtrees_trans husub hv) e he
      rintro rfl
      obtain rfl := hp.parent_unique ht (LoadTree.subtrees_trans husub hv) hc he
      exact htids (LoadTree.ids_subset hv (LoadTree.id_mem_ids _))
    · have hcsub := LoadTree.subtrees_trans ht
        (LoadTree.mem_subtrees_of_mem_children (t := .node n children) hc)
      have hfeed : a.feedBelow p answers' n feed c.info = a.feedBelow p answers n feed c.info :=
        feedBelow_congr (hother _ ht c hc hcu)
      rw [hfeed]
      refine ih c hc hcsub (fun hcids => ?_) hcg
      rcases hp.id_mem_ids_of_child ht husub hc hcids with heq | hmem
      · exact hcu heq
      · exact htids hmem

end EagerLoad
