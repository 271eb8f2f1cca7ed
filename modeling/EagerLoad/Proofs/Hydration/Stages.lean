import EagerLoad.Hydration.Load
import EagerLoad.Proofs.Hydration.Batches
import EagerLoad.Proofs.Hydration.Nested

/-!
# Stages of loading

After the primary rows and after each batch the arena holds the groups of the rows so far. A batch that
is passed over has no parent records with complete keys. One that is put asks for the keys of all its
parent records, each once, and no such record is added afterwards.
-/

namespace EagerLoad

open Arena

variable {p : Plan} {answers : Nat → List Row} {a a' : Arena} {feed : Feed} {t m u : LoadTree}
  {row : Row} {rows primary : List Row} {i : Nat} {b : Batch} {parent : Nat} {pending : PendingBatch}

/-- The arena after the primary rows and the batches before `next`. -/
structure Plan.Stage (p : Plan) (primary : List Row) (next : Nat) (answers : Nat → List Row)
    (a : Arena) : Prop where
  grouped : Grouped p answers a p.tree (.ofPrimary primary)
  nodes : ∀ r ∈ a.records, r.node ∈ p.tree.ids
  /-- The other batches have no rows yet. -/
  waiting : ∀ i, next ≤ i → answers i = []

/-- The numbers of the nodes of a plan that are read from a statement at or after a position. -/
def Plan.ReadSince (p : Plan) (position id : Nat) : Prop :=
  ∃ u ∈ p.tree.subtrees, u.info.id = id ∧ position ≤ u.info.source.position

theorem Plan.ReadSince.mono {position later id : Nat} (h : p.ReadSince later id)
    (hle : position ≤ later) : p.ReadSince position id := by
  obtain ⟨u, hu, hid, hlater⟩ := h
  exact ⟨u, hu, hid, hle.trans hlater⟩

/-- The node below whose records a batch is loaded. -/
def Plan.parentOf (p : Plan) (b : Batch) : Option Nat :=
  (p.node? b.node).bind (·.parent)

theorem Plan.parentOf_eq {n : Node} (h : p.node? b.node = some n) : p.parentOf b = n.parent := by
  rw [parentOf, h, Option.bind_some]

/-- The keys for which a batch asks: those of some records, each once. -/
structure Batch.Asks (b : Batch) (parents : KeyMap Value → Prop) (keys : List (List Value)) : Prop where
  nonempty : keys ≠ []
  source : ∀ key ∈ keys, ∃ values, parents values ∧ completeKey values b.parentColumns = some key
  complete : ∀ values key, parents values → completeKey values b.parentColumns = some key →
    identities key ∈ keys.map identities
  distinct : (keys.map identities).Nodup

theorem identities_keyGroup {keyed : List (List Value × Nat)} {k : List String}
    (h : k ∈ keyed.map fun e => identities e.1) :
    (keyGroup keyed k).key ∈ keyed.map (·.1) ∧ identities (keyGroup keyed k).key = k := by
  obtain ⟨q, -, hkeyed, hids⟩ := head?_keyGroup h
  exact ⟨List.mem_map_of_mem hkeyed, hids⟩

/-- The groups have one key for each of the keys that are grouped. -/
theorem identities_keyGroups (keyed : List (List Value × Nat)) :
    ((keyGroups keyed).map (·.key)).map identities =
      (keyed.map fun e => identities e.1).eraseDups := by
  rw [keyGroups, List.map_map, List.map_map]
  refine (List.map_congr_left fun k hk => ?_).trans (List.map_id _)
  exact (identities_keyGroup (List.mem_eraseDups.mp hk)).2

theorem keyGroups_eq_nil {keyed : List (List Value × Nat)} : keyGroups keyed = [] ↔ keyed = [] := by
  cases keyed with
  | nil => exact iff_of_true rfl rfl
  | cons e rest => simp [keyGroups, List.eraseDups_cons]

/-- What preparing a batch makes of the groups of its parents. -/
theorem Plan.prepareBatch_eq (hparent : p.parentOf b = some parent) :
    p.prepareBatch b a = if a.keyed parent b.parentColumns = [] then none
      else some ⟨b.forParents ((keyGroups (a.keyed parent b.parentColumns)).map (·.key)),
        KeyGroup.listing (keyGroups (a.keyed parent b.parentColumns))⟩ := by
  have hgroups := a.groups_groupParents parent b.parentColumns
  have hempty : (a.groupParents parent b.parentColumns).keys.isEmpty = true ↔
      a.keyed parent b.parentColumns = [] := by
    rw [List.isEmpty_iff, hgroups.keys, List.map_eq_nil_iff, keyGroups_eq_nil]
  rw [← hgroups.keys, ← hgroups.parents]
  simp only [← hempty]
  unfold Plan.parentOf at hparent
  unfold Plan.prepareBatch
  cases hn : p.node? b.node with
  | none => simp [hn] at hparent
  | some n =>
    rw [hn, Option.bind_some] at hparent
    simp [hparent]

/-- A batch that is not put has no parent records with complete keys. -/
theorem Plan.prepareBatch_eq_none (hparent : p.parentOf b = some parent)
    (h : p.prepareBatch b a = none) :
    ∀ r ∈ a.records, r.node = parent → completeKey r.values b.parentColumns = none := by
  intro r hr hnode
  rw [Plan.prepareBatch_eq hparent, ite_eq_left_iff] at h
  have hnil : a.keyed parent b.parentColumns = [] := by
    by_contra hne
    cases h hne
  cases hkey : completeKey r.values b.parentColumns with
  | none => rfl
  | some key =>
    obtain ⟨q, hq⟩ := List.getElem?_of_mem hr
    have hmem := Arena.mem_keyed.mpr ⟨r, hq, hnode, hkey⟩
    rw [hnil] at hmem
    exact absurd hmem List.not_mem_nil

/-- A batch that is put asks for the keys of its parent records. -/
theorem Plan.prepareBatch_eq_some (hparent : p.parentOf b = some parent)
    (h : p.prepareBatch b a = some pending) :
    pending.parents = KeyGroup.listing (keyGroups (a.keyed parent b.parentColumns)) ∧
      ∃ keys, pending.statement = b.forParents keys ∧
        b.Asks (fun values => ∃ r ∈ a.records, r.node = parent ∧ values = r.values) keys := by
  rw [Plan.prepareBatch_eq hparent] at h
  split at h
  · cases h
  · rename_i hne
    cases h
    refine ⟨rfl, _, rfl, ?_⟩
    constructor
    case nonempty =>
      rwa [ne_eq, List.map_eq_nil_iff, keyGroups_eq_nil]
    case source =>
      intro key hkey
      obtain ⟨g, hg, rfl⟩ := List.mem_map.mp hkey
      obtain ⟨k, hk, rfl⟩ := List.mem_map.mp hg
      obtain ⟨e, he, hekey⟩ := List.mem_map.mp (identities_keyGroup (List.mem_eraseDups.mp hk)).1
      obtain ⟨r, hr, hnode, hcomplete⟩ := Arena.mem_keyed.mp he
      exact ⟨r.values, ⟨r, List.mem_of_getElem? hr, hnode, rfl⟩, hekey ▸ hcomplete⟩
    case complete =>
      rintro values key ⟨r, hr, hnode, rfl⟩ hkey
      obtain ⟨q, hq⟩ := List.getElem?_of_mem hr
      rw [identities_keyGroups, List.mem_eraseDups]
      exact List.mem_map.mpr ⟨_, Arena.mem_keyed.mpr ⟨r, hq, hnode, hkey⟩, rfl⟩
    case distinct =>
      rw [identities_keyGroups]
      exact nodup_eraseDups _

/-- A batch is put only if there is a record below which it is to be loaded. -/
theorem Plan.exists_parent_of_prepareBatch (hparent : p.parentOf b = some parent)
    (h : p.prepareBatch b a = some pending) : ∃ r ∈ a.records, r.node = parent := by
  obtain ⟨-, keys, -, hasks⟩ := Plan.prepareBatch_eq_some hparent h
  obtain ⟨key, hkey⟩ := List.exists_mem_of_ne_nil _ hasks.nonempty
  obtain ⟨_, ⟨r, hr, hnode, -⟩, -⟩ := hasks.source key hkey
  exact ⟨r, hr, hnode⟩

/-- A batch without rows has made no records. -/
theorem Arena.Grouped.node_ne_of_waiting (hanswers : answers i = [])
    (hg : Grouped p answers a t feed) (hfeed : t.info.source = .batch i → ∀ parent, feed parent = [])
    (hu : u ∈ t.subtrees) (hsource : u.info.source = .batch i) :
    ∀ r ∈ a.records, r.node ≠ u.info.id := by
  induction t using LoadTree.induction generalizing feed with
  | node n children ih =>
    have htop : a.GroupedAt n feed := hg.groupedAt
    rcases LoadTree.mem_subtrees_node.mp hu with rfl | ⟨c, hc, hcu⟩
    · intro r hr hnode
      obtain ⟨e, he, rfl⟩ := htop.inStep.mem_log hr
      obtain ⟨q, hq⟩ := List.getElem?_of_mem he
      have hkeys := htop.keys e.parent
      rw [hfeed hsource, Node.keys_nil, List.map_eq_nil_iff] at hkeys
      have hmem := mem_entries.mpr ⟨hq, hnode, rfl⟩
      exact List.not_mem_nil (hkeys ▸ hmem)
    · refine ih c hc (hg.children hc) (fun hcsource parent => ?_) hcu
      cases parent with
      | none => rfl
      | some q =>
        by_cases hrecord : ∃ e, a.log[q]? = some e ∧ e.node = n.id
        · obtain ⟨e, he, hnode⟩ := hrecord
          rw [LoadTree.info_node, feedBelow_of_record he hnode]
          by_cases hn : c.info.source = n.source
          · rw [Plan.rowsBelow_of_eq hn, hfeed (hn.symm.trans hcsource)]
            rfl
          · rw [Plan.rowsBelow, if_neg hn, hcsource]
            simp only [hanswers, Batch.linked_nil]
            split <;> rfl
        · exact feedBelow_of_not fun e he hnode => hrecord ⟨e, he, hnode⟩

/-- The empty arena holds the groups of no rows. -/
theorem Arena.Grouped.empty (hfeed : ∀ parent, feed parent = []) : Grouped p answers .empty t feed := by
  induction t using LoadTree.induction generalizing feed with
  | node n children ih =>
    refine .node ⟨inStep_empty, fun parent => ?_, ?_⟩ fun c hc => ih c hc fun parent => ?_
    · rw [hfeed]
      rfl
    · intro e he
      exact absurd he List.not_mem_nil
    · cases parent <;> rfl

/-- Folding the primary rows leaves the arena with their groups. -/
theorem Plan.Staged.stage_zero (hp : p.Staged) (h : p.absorbPrimaries rows .empty = (.ok (), a)) :
    p.Stage rows 0 (fun _ => []) a := by
  have hfold : ∀ (rows done : List Row) (a₀ : Arena), p.Stage done 0 (fun _ => []) a₀ →
      p.absorbPrimaries rows a₀ = (.ok (), a) → p.Stage (done ++ rows) 0 (fun _ => []) a := by
    intro rows
    induction rows with
    | nil =>
      rintro done a₀ hstage h
      cases h
      simpa using hstage
    | cons row rest ih =>
      intro done a₀ hstage h
      unfold Plan.absorbPrimaries at h
      split at h
      · cases h
      · rename_i a₁ h₁
        rw [List.append_cons]
        refine ih _ a₁ ⟨?_, ?_, fun _ _ => rfl⟩ h
        · have hadd : (Feed.ofPrimary done).add [none] row = .ofPrimary (done ++ [row]) := by
            funext parent
            cases parent <;> simp [Feed.ofPrimary, Feed.add]
          rw [← hadd]
          exact hstage.grouped.absorb hp.ids hp.root.1 (fun _ _ _ _ _ => rfl) h₁
        · obtain ⟨new, hnew, hkind⟩ := (LoadTree.absorb_extends hp.root.1 h₁).exists_records
          intro r hr
          rcases List.mem_append.mp (hnew ▸ hr) with hr | hr
          · exact hstage.nodes r hr
          · exact (hkind r hr).mem_ids
  refine hfold rows [] .empty ⟨.empty fun parent => ?_, ?_, fun _ _ => rfl⟩ h
  · cases parent <;> rfl
  · intro r hr
    exact absurd hr List.not_mem_nil

/-- The columns of a link that are read are those that the row has. -/
theorem Batch.linkOf_eq {link : List Value} (h : b.linkLabels.mapM row.named = .ok link) :
    b.linkOf row = link.map Value.identity := by
  have hcells : ∀ (labels : List String) (link : List Value), labels.mapM row.named = .ok link →
      labels.map row.cell = link := by
    intro labels
    induction labels with
    | nil =>
      intro link h
      cases h
      rfl
    | cons label rest ih =>
      intro link h
      rw [List.mapM_cons] at h
      obtain ⟨v, hv, h⟩ := bind_eq_ok.mp h
      obtain ⟨vs, hvs, h⟩ := bind_eq_ok.mp h
      cases h
      rw [List.map_cons, Row.cell_of_named hv, ih vs hvs]
  rw [Batch.linkOf, identities, hcells _ _ h]

/-- The parents of a row were grouped before its batch was put. As no record of their node has come since,
they are the records that link to the row. -/
theorem PendingBatch.mem_parentsOf {a₀ : Arena} {kind : Nat → Prop} {parent q : Nat} {link : List Value}
    (hgroups : pending.parents = KeyGroup.listing (keyGroups (a₀.keyed parent b.parentColumns)))
    (hext : a₀.Extends a kind)
    (hkind : ¬ kind parent) (hlink : b.linkLabels.mapM row.named = .ok link) :
    q ∈ pending.parentsOf (link.map Value.identity) ↔
      ∃ r, a.records[q]? = some r ∧ r.node = parent ∧
        ∃ key, completeKey r.values b.parentColumns = some key ∧ b.linkOf row = identities key := by
  rw [PendingBatch.parentsOf_eq hgroups, List.mem_map, Batch.linkOf_eq hlink]
  constructor
  · rintro ⟨⟨key, q'⟩, he, rfl⟩
    obtain ⟨hkeyed, hids⟩ := List.mem_filter.mp he
    obtain ⟨r, hr, hnode, hkey⟩ := Arena.mem_keyed.mp hkeyed
    exact ⟨r, hext.getElem? hr, hnode, key, hkey, (of_decide_eq_true hids).symm⟩
  · rintro ⟨r, hr, hnode, key, hkey, hids⟩
    have hr₀ := hext.getElem?_of_not hr (hnode ▸ hkind)
    refine ⟨(key, q), List.mem_filter.mpr ⟨?_, decide_eq_true hids.symm⟩, rfl⟩
    exact Arena.mem_keyed.mpr ⟨r, hr₀, hnode, hkey⟩

namespace Plan.Stage

section Rows

variable (hp : p.Staged) (hb : p.batches[i]? = some b) (hm : m ∈ p.tree.subtrees) (hu : u ∈ m.children)
  (hnode : u.info.id = b.node) (hsource : u.info.source = .batch i)
  (hopened : u.info.source ≠ m.info.source) {a₀ : Arena} {done : List Row}
  (hgroups : pending.parents = KeyGroup.listing (keyGroups (a₀.keyed m.info.id b.parentColumns)))
  (hext : a₀.Extends a (· ∈ u.ids)) (hwaiting : ∀ j, i < j → answers j = [])
  (hg : Grouped p (Function.update answers i done) a p.tree (.ofPrimary primary))

include hp hb hm hu hnode hsource hopened hgroups hext hwaiting hg

/-- The arena of a stage when one more row of the next batch is folded. -/
private theorem addRow (h : p.absorbBatchRow i b pending row a = (.ok (), a')) :
    Grouped p (Function.update answers i (done ++ [row])) a' p.tree (.ofPrimary primary) ∧
      a.Extends a' (u.ReadFrom (.batch i)) := by
  have husub := LoadTree.subtrees_trans hm (LoadTree.mem_subtrees_of_mem_children hu)
  have hmids := LoadTree.id_not_mem_ids_of_mem_children
    (LoadTree.ids_nodup_of_mem_subtrees hp.ids hm) hu
  unfold Plan.absorbBatchRow at h
  split at h
  · cases h
  · rename_i link hlink
    rw [← hnode, LoadTree.find?_id hp.ids husub] at h
    dsimp only at h
    have hext' := LoadTree.absorbUnder_extends hsource h
    have hnodup : (pending.parentsOf (link.map Value.identity)).Nodup := by
      rw [PendingBatch.parentsOf_eq hgroups]
      exact (Arena.keyed_nodup a₀ _ _).sublist (List.filter_sublist.map _)
    -- Batches that are opened further down come later.
    have hlater : ∀ v ∈ u.subtrees, ∀ j, v.info.source = .batch j → v.info.source ≠ .batch i →
        Function.update answers i done j = [] := by
      intro v hv j hj hne
      have hle := hp.position_le husub hv
      rw [hsource, hj] at hle
      have hlt : i < j := by
        apply lt_of_le_of_ne (Nat.le_of_succ_le_succ hle)
        intro heq
        exact hne (by rw [hj, heq])
      rw [Function.update_of_ne (by omega)]
      exact hwaiting j hlt
    refine ⟨hg.addBatchRow hp hb hm hu hsource hopened ?_ ?_
      (fun q => PendingBatch.mem_parentsOf hgroups hext hmids hlink)
      (hext'.mono fun _ hread => hread.mem_ids) ?_ (LoadTree.mem_subtrees_self _)
      (hp.root_not_mem_ids hm hu), hext'⟩
    · intro j hj
      rw [Function.update_of_ne hj, Function.update_of_ne hj]
    · rw [Function.update_self, Function.update_self]
    · exact fun feed hgu => hgu.absorbUnder hnodup
        (LoadTree.ids_nodup_of_mem_subtrees hp.ids husub) hsource hlater h

/-- The arena of a stage as more rows of the next batch are folded. -/
private theorem addRows (h : p.absorbBatch i b pending rows a = (.ok (), a')) :
    Grouped p (Function.update answers i (done ++ rows)) a' p.tree (.ofPrimary primary) ∧
      a.Extends a' (u.ReadFrom (.batch i)) := by
  induction rows generalizing done a with
  | nil =>
    cases h
    exact ⟨by simpa using hg, .refl ..⟩
  | cons row rest ih =>
    unfold Plan.absorbBatch at h
    split at h
    · cases h
    · rename_i a₁ h₁
      obtain ⟨hg₁, hext₁⟩ :=
        addRow hp hb hm hu hnode hsource hopened hgroups hext hwaiting hg h₁
      have hids₁ : a.Extends a₁ (· ∈ u.ids) := hext₁.mono fun _ hread => hread.mem_ids
      obtain ⟨hg', hext'⟩ := ih (hext.trans hids₁) hg₁ h
      rw [List.append_cons]
      exact ⟨hg', hext₁.trans hext'⟩

end Rows

/-- A batch that is put is opened by the node that it names. -/
theorem opened (hp : p.Staged) (hstage : p.Stage primary i answers a) (hb : p.batches[i]? = some b)
    (hpending : p.prepareBatch b a = some pending) :
    ∃ m ∈ p.tree.subtrees, ∃ u ∈ m.children, u.info.id = b.node ∧ u.info.source = .batch i ∧
      u.info.source ≠ m.info.source ∧ p.parentOf b = some m.info.id := by
  obtain ⟨m, hm, u, hu, hid, hsource, hfound, hparent⟩ := hp.batch hb
  have hparentOf := (Plan.parentOf_eq hfound).trans hparent
  refine ⟨m, hm, u, hu, hid, hsource, fun heq => ?_, hparentOf⟩
  obtain ⟨r, hr, hnode⟩ := Plan.exists_parent_of_prepareBatch hparentOf hpending
  refine hstage.grouped.node_ne_of_waiting (hstage.waiting i le_rfl) (fun hroot => ?_) hm
    (heq.symm.trans hsource) r hr hnode
  rw [hp.root.1] at hroot
  cases hroot

/-- Putting a batch completes its stage. -/
theorem put (hp : p.Staged) (hstage : p.Stage primary i answers a) (hb : p.batches[i]? = some b)
    (hpending : p.prepareBatch b a = some pending)
    (h : p.absorbBatch i b pending rows a = (.ok (), a')) :
    p.Stage primary (i + 1) (Function.update answers i rows) a' ∧
      a.Extends a' (p.ReadSince (i + 1)) := by
  obtain ⟨m, hm, u, hu, hid, hsource, hopened, hparentOf⟩ := hstage.opened hp hb hpending
  obtain ⟨hgroups, -⟩ := Plan.prepareBatch_eq_some hparentOf hpending
  have husub := LoadTree.subtrees_trans hm (LoadTree.mem_subtrees_of_mem_children hu)
  have hstart : Grouped p (Function.update answers i []) a p.tree (.ofPrimary primary) := by
    have hsame : Function.update answers i [] = answers := by
      rw [← hstage.waiting i le_rfl, Function.update_eq_self]
    rw [hsame]
    exact hstage.grouped
  obtain ⟨hgrouped, hext⟩ := addRows hp hb hm hu hid hsource hopened hgroups (.refl ..)
    (fun j hj => hstage.waiting j hj.le) hstart h
  refine ⟨⟨hgrouped, ?_, fun j hj => ?_⟩, hext.mono ?_⟩
  · obtain ⟨new, hnew, hkind⟩ := hext.exists_records
    intro r hr
    rcases List.mem_append.mp (hnew ▸ hr) with hr | hr
    · exact hstage.nodes r hr
    · exact LoadTree.ids_subset husub (hkind r hr).mem_ids
  · rw [Function.update_of_ne (by omega)]
    exact hstage.waiting j (by omega)
  · rintro id ⟨v, hv, rfl, hvsource⟩
    exact ⟨v, LoadTree.subtrees_trans husub hv, rfl, by rw [hvsource]; exact le_refl _⟩

end Plan.Stage

end EagerLoad
