import EagerLoad.Proofs.Hydration.Calls
import EagerLoad.Proofs.Hydration.Forest
import EagerLoad.Proofs.Hydration.Order
import EagerLoad.Proofs.Loading.Filters
import EagerLoad.Proofs.Sql.Placeholders

/-!
# The parents of a batch

Whenever a batch is prepared, the records of its parent node are partitioned by the identities of their keys.
The statement asks for one key of each part, that of the record made first, and binds these keys behind the
values that the batch has of its own. A record is left out only for a null in its key: a hydrator never has
records of a node that lacks the columns of a key.
-/

namespace EagerLoad

open Sql Arena

variable {p : Plan} {a : Arena} {b : Batch} {i q parent : Nat} {m : LoadTree} {pending : PendingBatch}
  {h h' : Hydrator} {values : KeyMap Value} {columns : List String} {key : List Value}
  {keys : List (List Value)} {link : List Column}

/-- The record at a position is of a node and has a key: its columns have the values of the key, and these
are not null. -/
def Arena.HasKey (a : Arena) (node : Nat) (columns : List String) (q : Nat) (key : List Value) : Prop :=
  ∃ r, a.records[q]? = some r ∧ r.node = node ∧
    List.Forall₂ (fun column v => r.values.get? column = some v ∧ v ≠ .null) columns key

/-- How records with keys are grouped for a batch. -/
structure PendingBatch.Partitions (pending : PendingBatch) (groups : List KeyGroup) (b : Batch) (a : Arena)
    (parent : Nat) : Prop where
  /-- The map of parents and the key tuples are in step: they are those of the groups. -/
  parents : pending.parents = KeyGroup.listing groups
  /-- The batch is narrowed to the keys of the groups, which are bound last. -/
  statement : pending.statement = b.forParents (groups.map (·.key))
  bound : pending.statement.render.params =
    b.statement.render.params ++ (groups.map (·.key)).flatten
  /-- The records with keys are those in the groups, and each is in one of them. -/
  partition : ∀ q, (∃ key, a.HasKey parent b.parentColumns q key) ↔ ∃! g, g ∈ groups ∧ q ∈ g.parents
  /-- A group has all records whose keys have its identities. -/
  members : ∀ g ∈ groups, ∀ q, q ∈ g.parents ↔
    ∃ key, a.HasKey parent b.parentColumns q key ∧ identities key = g.identity
  /-- There is one group for some identities, and it is what is found by them. -/
  distinct : (groups.map (·.identity)).Nodup
  found : ∀ g ∈ groups, pending.parentsOf g.identity = g.parents
  /-- The records of a group are in the order in which they were made. -/
  ascending : ∀ g ∈ groups, g.parents.Pairwise (· < ·)
  /-- The key of a group is that of its first record. -/
  first : ∀ g ∈ groups, ∃ q, g.parents.head? = some q ∧ a.HasKey parent b.parentColumns q g.key
  /-- The groups are in the order in which their first records were made. -/
  order : (groups.filterMap (·.parents.head?)).Pairwise (· < ·)

/-- How a batch is prepared from the records of its parent node, which is the parent of the node that it
names. -/
structure Plan.GroupsParents (p : Plan) (b : Batch) (a : Arena) (parent : Nat) : Prop where
  parentOf : p.parentOf b = some parent
  /-- A record of the parent node has a key exactly if none of the columns is null. -/
  complete : ∀ q r, a.records[q]? = some r → r.node = parent →
    ((∃ key, a.HasKey parent b.parentColumns q key) ↔
      ∀ column ∈ b.parentColumns, r.values.get? column ≠ some .null)
  none_iff : p.prepareBatch b a = none ↔ ¬ ∃ q key, a.HasKey parent b.parentColumns q key
  partitions : ∀ pending, p.prepareBatch b a = some pending →
    ∃ groups, pending.Partitions groups b a parent

section Keys

/-- A key is complete if it has the values of its columns and they are not null. -/
theorem completeKey_eq_some_iff : completeKey values columns = some key ↔
    List.Forall₂ (fun column v => values.get? column = some v ∧ v ≠ .null) columns key := by
  induction columns generalizing key with
  | nil => simp [completeKey, eq_comm]
  | cons column rest ih =>
    rw [completeKey_cons, List.forall₂_cons_left_iff]
    simp only [Option.bind_eq_some_iff, Option.filter_eq_some_iff, Option.some.injEq, ih, ne_eq,
      ← Value.isNull_iff, Bool.not_eq_true', Bool.not_eq_true]
    constructor
    · rintro ⟨v, hv, vs, hvs, rfl⟩
      exact ⟨v, vs, hv, hvs, rfl⟩
    · rintro ⟨v, vs, hv, hvs, rfl⟩
      exact ⟨v, hv, vs, hvs, rfl⟩

namespace Arena

variable {node : Nat}

theorem mem_keyed_iff : (key, q) ∈ a.keyed node columns ↔ a.HasKey node columns q key := by
  simp only [mem_keyed, HasKey, completeKey_eq_some_iff]

theorem HasKey.length_eq (hkey : a.HasKey node columns q key) : key.length = columns.length := by
  obtain ⟨r, -, -, hvalues⟩ := hkey
  exact hvalues.length_eq.symm

theorem HasKey.null_not_mem (hkey : a.HasKey node columns q key) : Value.null ∉ key := by
  obtain ⟨r, -, -, hvalues⟩ := hkey
  induction hvalues with
  | nil => exact List.not_mem_nil
  | cons hfirst _ ih => exact List.not_mem_cons_of_ne_of_not_mem (Ne.symm hfirst.2) ih

/-- A record has a key if no column lacks a value or has a null. -/
theorem exists_hasKey {r : Record} (hr : a.records[q]? = some r) (hnode : r.node = node) :
    (∃ key, a.HasKey node columns q key) ↔
      ∀ column ∈ columns, ∃ v, r.values.get? column = some v ∧ v.isNull = false := by
  rw [← exists_completeKey]
  refine exists_congr fun key => ?_
  rw [completeKey_eq_some_iff]
  constructor
  · rintro ⟨r', hr', -, hvalues⟩
    obtain rfl := Option.some.inj (hr.symm.trans hr')
    exact hvalues
  · exact fun hvalues => ⟨r, hr, hnode, hvalues⟩

end Arena

end Keys

section Parameters

/-- A statement binds its values but nulls. -/
theorem Sql.Select.params_render (s : Select) : s.render.params = boundValues s.values := by
  rw [render, Query.ofPieces, Piece.params_writeFrom, bound_pieces]

/-- The values of a further condition come last. -/
theorem Sql.Select.values_filtered (s : Select) (c : Condition) :
    (s.filtered c).values = s.values ++ c.values := by
  obtain ⟨source, projections, joins, conditions, ordering, limit, offset⟩ := s
  simp [filtered, Select.values, Condition.valuesAll_eq_flatMap]

theorem Sql.Condition.values_all (items : List Condition) :
    (Condition.all items).values = valuesAll items := by
  unfold all
  split
  · simp [valuesAll]
  · rfl

/-- The values of a filter are those of the keys. -/
theorem values_linkFilter (hlength : ∀ key ∈ keys, key.length = link.length) :
    (linkFilter link keys).values = keys.flatten := by
  unfold linkFilter
  split
  · rw [Condition.values]
    induction keys with
    | nil => rfl
    | cons key rest ih =>
      obtain ⟨hkey, hrest⟩ := List.forall_mem_cons.mp hlength
      obtain ⟨v, rfl⟩ := List.length_eq_one_iff.mp hkey
      rw [List.filterMap_cons_some List.head?_cons, ih hrest, List.flatten_cons, List.singleton_append]
  · rw [Condition.values, Condition.valuesAll_eq_flatMap, List.flatMap_map, List.flatten_eq_flatMap]
    refine List.flatMap_congr fun key hkey => ?_
    rw [Condition.values_all, Condition.valuesAll_eq_flatMap, List.flatMap_map]
    exact (List.map_eq_flatMap ..).symm.trans (List.map_snd_zip (hlength key hkey).le)

/-- What a batch binds for some keys: its own values, then those of the keys. -/
theorem Batch.params_forParents (hlength : ∀ key ∈ keys, key.length = b.link.length)
    (hnull : ∀ key ∈ keys, Value.null ∉ key) :
    (b.forParents keys).render.params = b.statement.render.params ++ keys.flatten := by
  have hbound : boundValues keys.flatten = keys.flatten := by
    refine List.filter_eq_self.mpr fun v hv => ?_
    obtain ⟨key, hkey, hmem⟩ := List.mem_flatten.mp hv
    rw [Bool.not_eq_true', ← Bool.not_eq_true, Value.isNull_iff]
    exact fun heq => hnull key hkey (heq ▸ hmem)
  rw [forParents, Select.params_render, Select.params_render, Select.values_filtered,
    boundValues_append, values_linkFilter hlength, hbound]

end Parameters

namespace Plan

/-- What is known of the batches that were prepared. Only then are there records of nodes that are read from
them, and none of them is to be loaded below such a node. -/
structure Prepares (p : Plan) (h : Hydrator) : Prop where
  made : ∀ t ∈ p.tree.subtrees, ∀ i, t.info.source = .batch i → ∀ r ∈ h.arena.records,
    r.node = t.info.id → ∃ pending, (i, pending) ∈ h.prepared
  elsewhere : ∀ i pending, (i, pending) ∈ h.prepared → ∀ b, p.batches[i]? = some b →
    ∀ m ∈ p.tree.subtrees, p.parentOf b = some m.info.id → m.info.source ≠ .batch i

/-- A record of the node below which a batch is to be loaded shows that this node is read from elsewhere. -/
theorem Prepares.source_ne (hk : p.Prepares h) (hb : p.batches[i]? = some b) (hm : m ∈ p.tree.subtrees)
    (hparent : p.parentOf b = some m.info.id) {r : Record} (hr : r ∈ h.arena.records)
    (hnode : r.node = m.info.id) : m.info.source ≠ .batch i := by
  intro hsource
  obtain ⟨pending, hpending⟩ := hk.made m hm i hsource r hr hnode
  exact hk.elsewhere i pending hpending b hb m hm hparent hsource

/-- Rows make records of nodes that are read from their statement. -/
theorem Prepares.extends {source : RowSource} (hp : p.Staged) (hk : p.Prepares h)
    (hext : h.arena.Extends a (p.tree.ReadFrom source))
    (hsource : ∀ i, source = .batch i → ∃ pending, (i, pending) ∈ h.prepared) :
    p.Prepares { h with arena := a } := by
  obtain ⟨new, hnew, hkind⟩ := hext.exists_records
  refine ⟨fun t ht i hi r hr hnode => ?_, hk.elsewhere⟩
  rcases List.mem_append.mp (hnew ▸ hr) with hr | hr
  · exact hk.made t ht i hi r hr hnode
  · obtain ⟨u, hu, hid, hread⟩ := hkind r hr
    obtain rfl := LoadTree.eq_of_id_eq hp.ids hu ht (hid.trans hnode)
    exact hsource i (hread.symm.trans hi)

/-- Every call keeps what is known of the batches that were prepared. -/
theorem Prepares.step (hp : p.Staged) (hk : p.Prepares h) (hstep : p.Step h h') : p.Prepares h' := by
  cases hstep with
  | primary habsorb =>
    exact hk.extends hp (LoadTree.absorb_extends hp.root.1 habsorb) fun i hi => by cases hi
  | @prepare i b hb =>
    constructor
    case made =>
      intro t ht j hj r hr hnode
      obtain ⟨pending, hpending⟩ := hk.made t ht j hj r hr hnode
      exact ⟨pending, List.mem_append_left _ hpending⟩
    case elsewhere =>
      intro j pending hmem b' hb' m hm hparent
      rcases List.mem_append.mp hmem with hmem | hmem
      · exact hk.elsewhere j pending hmem b' hb' m hm hparent
      · obtain ⟨pending', hprepare, heq⟩ := Option.map_eq_some_iff.mp (Option.mem_toList.mp hmem)
        cases heq
        obtain rfl := Option.some.inj (hb.symm.trans hb')
        -- A record of a node of the batch itself would show that the batch was prepared before.
        obtain ⟨r, hr, hnode⟩ := exists_parent_of_prepareBatch hparent hprepare
        exact hk.source_ne hb hm hparent hr hnode
  | @batch i b pending rows result a hb hmem habsorb =>
    refine hk.extends hp (absorbBatch_extends hp hb habsorb) fun j hj => ?_
    cases hj
    exact ⟨pending, hmem⟩

theorem Reaches.prepares (hp : p.Staged) (hreach : p.Reaches h) : p.Prepares h := by
  induction hreach with
  | refl => exact ⟨by simp [Arena.empty], by simp⟩
  | tail _ hstep ih => exact ih.step hp hstep

/-- A record below which a batch is to be loaded has a key exactly if none of the columns is null. -/
theorem Reaches.exists_hasKey_iff (hp : p.Staged) (hlaid : p.LaidOut)
    (htree : ∀ n ∈ p.nodes, ∃ t ∈ p.tree.subtrees, t.info = n) (hreach : p.Reaches h)
    (hb : p.batches[i]? = some b) (hm : m ∈ p.tree.subtrees) (hparent : p.parentOf b = some m.info.id)
    {r : Record} (hr : h.arena.records[q]? = some r) (hnode : r.node = m.info.id) :
    (∃ key, h.arena.HasKey m.info.id b.parentColumns q key) ↔
      ∀ column ∈ b.parentColumns, r.values.get? column ≠ some .null := by
  have hsource := (hreach.prepares hp).source_ne hb hm hparent (List.mem_of_getElem? hr) hnode
  obtain ⟨n, hopens, -⟩ := hlaid.opens_of_source_ne hp htree hb hm hparent hsource
  have hf := (hreach.keeps hp).forest
  obtain ⟨e, he, rfl⟩ := hf.inStep.exists_log hr
  obtain ⟨t, ht, hid, hvalues, -⟩ := hf.placed q e he
  obtain rfl := LoadTree.eq_of_id_eq hp.ids ht hm (hid.trans hnode)
  rw [Arena.exists_hasKey hr hnode]
  refine forall₂_congr fun column hcolumn => ?_
  obtain ⟨v, hv⟩ := hvalues column (hopens.columns hcolumn)
  simp [hv, ← Value.isNull_iff]

/-- A hydrator may take in the rows of the primary statement one after the other. -/
theorem reaches_absorbPrimaries {rows : List Row} {result : Except Error Unit} {a' : Arena}
    (habsorb : p.absorbPrimaries rows a = (result, a')) (hreach : p.Reaches ⟨a, []⟩) : p.Reaches ⟨a', []⟩ := by
  induction rows generalizing a with
  | nil =>
    cases habsorb
    exact hreach
  | cons row rest ih =>
    unfold Plan.absorbPrimaries at habsorb
    split at habsorb
    · rename_i hrow
      cases habsorb
      exact hreach.tail (.primary hrow)
    · rename_i hrow
      exact ih habsorb (hreach.tail (.primary hrow))

/-- No batch is prepared exactly if no record has a key. -/
theorem prepareBatch_eq_none_iff (hparent : p.parentOf b = some parent) :
    p.prepareBatch b a = none ↔ ¬ ∃ q key, a.HasKey parent b.parentColumns q key := by
  rw [prepareBatch_eq hparent, ite_eq_left_iff, ← not_iff_not, not_not, List.eq_nil_iff_forall_not_mem,
    exists_comm]
  simp [Prod.forall, Arena.mem_keyed_iff]

/-- A batch is prepared for the partition of the records that have keys. -/
theorem partitions_prepareBatch (hparent : p.parentOf b = some parent)
    (hlength : b.parentColumns.length = b.link.length) (hprepare : p.prepareBatch b a = some pending) :
    pending.Partitions (keyGroups (a.keyed parent b.parentColumns)) b a parent := by
  rw [prepareBatch_eq hparent] at hprepare
  split at hprepare
  · cases hprepare
  obtain rfl := Option.some.inj hprepare
  have hascending : ((a.keyed parent b.parentColumns).map (·.2)).Pairwise (· < ·) :=
    List.Pairwise.sublist (a.keyed_sublist parent b.parentColumns) List.pairwise_lt_range'
  constructor
  case parents => rfl
  case partition =>
    intro q
    rw [← existsUnique_keyGroup (a.keyed_nodup parent b.parentColumns)]
    exact exists_congr fun key => mem_keyed_iff.symm
  case members =>
    intro g hg q
    obtain ⟨e, he, rfl⟩ := mem_keyGroups.mp hg
    rw [mem_parents_keyGroup]
    exact exists_congr fun key => and_congr_left fun _ => mem_keyed_iff
  case distinct =>
    have hids : (keyGroups (a.keyed parent b.parentColumns)).map (·.identity) =
        ((a.keyed parent b.parentColumns).map fun e => identities e.1).eraseDups := by
      rw [keyGroups, List.map_map]
      exact List.map_id _
    rw [hids]
    exact nodup_eraseDups _
  case found =>
    intro g hg
    obtain ⟨e, he, rfl⟩ := mem_keyGroups.mp hg
    exact PendingBatch.parentsOf_eq rfl _
  case ascending =>
    intro g hg
    obtain ⟨e, he, rfl⟩ := mem_keyGroups.mp hg
    exact hascending.sublist (List.filter_sublist.map _)
  case first =>
    intro g hg
    obtain ⟨e, he, rfl⟩ := mem_keyGroups.mp hg
    obtain ⟨q, hq, hkeyed, -⟩ := head?_keyGroup (List.mem_map_of_mem he)
    exact ⟨q, hq, mem_keyed_iff.mp hkeyed⟩
  case order => exact pairwise_heads_keyGroups hascending
  case statement => rfl
  case bound =>
    have hkey : ∀ key ∈ (keyGroups (a.keyed parent b.parentColumns)).map (·.key),
        ∃ q, a.HasKey parent b.parentColumns q key := by
      intro key hkey
      obtain ⟨g, hg, rfl⟩ := List.mem_map.mp hkey
      obtain ⟨e, he, rfl⟩ := mem_keyGroups.mp hg
      obtain ⟨q, -, hkeyed, -⟩ := head?_keyGroup (List.mem_map_of_mem he)
      exact ⟨q, mem_keyed_iff.mp hkeyed⟩
    refine Batch.params_forParents (fun key hmem => ?_) fun key hmem => ?_
    · obtain ⟨q, hkey⟩ := hkey key hmem
      exact hkey.length_eq.trans hlength
    · obtain ⟨q, hkey⟩ := hkey key hmem
      exact hkey.null_not_mem

end Plan

/-- Whatever calls were made of a hydrator of a compiled plan, a batch is prepared exactly if a record of its
parent node has a key. It is then prepared for the partition of the records that have one. -/
theorem compile_groupsParents {s : Schema} {r : Request} {entities : List Entity}
    {declarations : List Declaration} (hbuild : Schema.build entities declarations = .ok s)
    (hcompile : s.compile r = .ok p) (hreach : p.Reaches h) (hb : p.batches[i]? = some b) :
    ∃ parent, p.GroupsParents b h.arena parent := by
  have hp := Schema.compile_staged hcompile
  have hlaid := Schema.compile_laidOut hbuild hcompile
  obtain ⟨m, hm, u, -, -, -, hfound, hup⟩ := hp.batch hb
  have hparent := (Plan.parentOf_eq hfound).trans hup
  refine ⟨m.info.id, hparent, fun q record hrecord hnode => ?_, Plan.prepareBatch_eq_none_iff hparent,
    fun pending hprepare => ?_⟩
  · exact hreach.exists_hasKey_iff hp hlaid (fun n hn => Schema.compile_mem_tree hcompile hn) hb hm
      hparent hrecord hnode
  · obtain ⟨root, d, -, hd, rfl⟩ := Schema.compile_eq_ok hcompile
    obtain ⟨tableAlias, hlink⟩ := hd.projecting.link i b hb
    exact ⟨_, Plan.partitions_prepareBatch hparent hlink.length_eq hprepare⟩

theorem shelving_build : Schema.build shelving.entities
    [⟨"Shelf", "books", "Book", .many, [("room", "room"), ("number", "shelf_number")], none, none⟩] =
      .ok shelving := by
  rfl

/-- Four shelves, of which the second has no number, and the first and the third have the same number in the
same room. -/
def shelfRows : List Row :=
  let row (uuid : String) (room number : Value) : Row :=
    .ofValues [("s0.uuid", .text uuid), ("s0.room", room), ("s0.number", number)]
  [row "a" (.int32 3) (.int32 1), row "b" (.int32 3) .null, row "c" (.int32 3) (.int32 1),
    row "d" (.int32 4) (.int32 1)]

/-- The books of these shelves are asked for by two keys. -/
theorem shelving_groupsShelves :
    ∃ p, shelving.compile { Request.forModel "Shelf" with relations := ["books"], limit := none } = .ok p ∧
      ∃ h, p.Reaches h ∧ ∃ b, p.batches[0]? = some b ∧
        (p.prepareBatch b h.arena).map (fun pending => (pending.parents, pending.statement.render.params)) =
          some ([(["3", "1"], [0, 2]), (["4", "1"], [3])], [.int32 3, .int32 1, .int32 4, .int32 1]) ∧
        ∃ parent, p.GroupsParents b h.arena parent := by
  have hcompile : ∃ p, shelving.compile
        { Request.forModel "Shelf" with relations := ["books"], limit := none } = .ok p ∧
      ∃ a, p.absorbPrimaries shelfRows .empty = (.ok (), a) ∧ ∃ b, p.batches[0]? = some b ∧
        (p.prepareBatch b a).map (fun pending => (pending.parents, pending.statement.render.params)) =
          some ([(["3", "1"], [0, 2]), (["4", "1"], [3])], [.int32 3, .int32 1, .int32 4, .int32 1]) :=
    ⟨_, by cbv, _, by cbv, _, by cbv, by rfl⟩
  obtain ⟨p, hp, a, habsorb, b, hb, hprepare⟩ := hcompile
  have hreach : p.Reaches ⟨a, []⟩ := Plan.reaches_absorbPrimaries habsorb .refl
  exact ⟨p, hp, _, hreach, b, hb, hprepare, compile_groupsParents shelving_build hp hreach hb⟩

end EagerLoad
