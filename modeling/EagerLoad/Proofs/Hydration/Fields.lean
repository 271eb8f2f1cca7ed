import EagerLoad.Proofs.Hydration.Emission
import EagerLoad.Proofs.Hydration.Reads
import EagerLoad.Proofs.Loading.Bringing

/-!
# What a record shows

A record is emitted as an object of its columns, each with the value that was read for it, and of an entry
for each child of its node. No two entries have one name, but an entry takes the place of a column that has
its name. Validation does not rule that out: only where no relation is named like a column of its source
are all columns shown.
-/

namespace EagerLoad

open Arena

variable {s : Schema} {req : Request} {p : Plan} {a : Arena} {t c : LoadTree} {q x : Nat}
  {r : KeyedRecord} {row : Row} {root : s.EntityId} {hops : List s.RelationId} {d : Draft}

/-- Emitted is a record of the root, or one of those that are emitted below an emitted one. -/
inductive Plan.Emits (p : Plan) (a : Arena) : LoadTree → Nat → Prop
  | root {q : Nat} : q ∈ a.roots → Emits p a p.tree q
  | child {t c : LoadTree} {q x : Nat} : Emits p a t q → c ∈ t.children →
    x ∈ c.info.cardinality.emitted (a.childrenOf c.info.id q) → Emits p a c x

/-- No relation is named like a column of its source. -/
def Schema.NamesApart (s : Schema) : Prop :=
  ∀ id : s.RelationId, (s.relation id).name ∉ (s.entity (s.relation id).source).columns

instance : Decidable s.NamesApart :=
  inferInstanceAs (Decidable (∀ _ : s.RelationId, _ ∉ _))

/-- The object of a record, by its fields. -/
structure LoadTree.Shows (t : LoadTree) (a : Arena) (q : Nat) (row : Row)
    (fields : List (String × Json)) : Prop where
  object : t.recordJson a q = .obj fields
  /-- Every key stands once. -/
  ascending : (fields.map (·.1)).Pairwise (· < ·)
  keys : ∀ key, key ∈ fields.map (·.1) ↔ key ∈ t.info.columns ∨ ∃ c ∈ t.children, c.info.name = key
  /-- Each child has a key of its own. -/
  names : (t.children.map (·.info.name)).Nodup
  entry : ∀ c ∈ t.children, fields.lookup c.info.name = some (c.info.cardinality.entry
    ((c.info.cardinality.emitted (a.childrenOf c.info.id q)).map fun x => c.recordJson a x))
  /-- A column is shown unless a child is named like it. -/
  column : ∀ column ∈ t.info.columns, (∀ c ∈ t.children, c.info.name ≠ column) →
    ∃ v, row.named (t.info.label column) = .ok v ∧ fields.lookup column = some v.toJson

namespace LoadTree

theorem entriesJson_eq_emitted (a : Arena) (q : Nat) (children : List LoadTree) :
    entriesJson a q children = children.map fun c => (c.info.name, c.info.cardinality.entry
      ((c.info.cardinality.emitted (a.childrenOf c.info.id q)).map fun x => c.recordJson a x)) := by
  induction children with
  | nil => rfl
  | cons c rest ih =>
    rw [entriesJson, ih, List.map_cons]
    cases c.info.cardinality with
    | one => cases a.childrenOf c.info.id q <;> rfl
    | many => rfl

/-- A record that was made of a row shows it. -/
theorem exists_shows (hr : a.records[q]? = some r.toRecord) (hmakes : t.info.MakesOf row r)
    (hnames : (t.children.map (·.info.name)).Nodup) : ∃ fields, t.Shows a q row fields := by
  obtain ⟨n, children⟩ := t
  let own := r.values.entries.map fun entry => (entry.1, entry.2.toJson)
  let below := entriesJson a q children
  have hbelowKeys : below.map (·.1) = children.map (·.info.name) := by
    simp [below, entriesJson_eq_emitted, Function.comp_def]
  have hownKeys : own.map (·.1) = r.values.keys := by
    simp [own, KeyMap.keys, Function.comp_def]
  have hcolumns (key : String) : key ∈ r.values.keys ↔ key ∈ n.columns := by
    rw [← Node.values_of_readColumns hmakes.values]
    refine KeyMap.mem_keys_ofList.trans ?_
    simp
  have hlookup (key : String) : (KeyMap.ofList (own ++ below)).entries.lookup key =
      (below.reverse.lookup key).or (own.reverse.lookup key) := by
    refine (KeyMap.get?_ofList _ key).trans ?_
    rw [List.reverse_append, List.lookup_append]
  refine ⟨(KeyMap.ofList (own ++ below)).entries, ?object, ?ascending, fun key => ?keys, hnames,
    fun c hc => ?entry, fun column hcolumn hfree => ?column⟩
  case object => simp only [recordJson, hr, Json.object, own, below]
  case ascending => exact List.pairwise_map.mpr (KeyMap.ofList (own ++ below)).ascending
  case keys =>
    refine KeyMap.mem_keys_ofList.trans ?_
    rw [List.map_append, List.mem_append, hownKeys, hbelowKeys, hcolumns]
    simp
  case entry =>
    rw [hlookup, lookup_of_mem]
    · rfl
    · rw [List.map_reverse, List.nodup_reverse, hbelowKeys]
      exact hnames
    · rw [List.mem_reverse, show below = _ from entriesJson_eq_emitted a q children]
      exact List.mem_map_of_mem hc
  case column =>
    obtain ⟨v, hv, hget⟩ := Node.named_of_readColumns hmakes.values column hcolumn
    have hbelow : below.reverse.lookup column = none := by
      rw [lookup_eq_none_iff_not_mem, List.map_reverse, List.mem_reverse, hbelowKeys]
      intro hmem
      obtain ⟨c, hc, hname⟩ := List.mem_map.mp hmem
      exact hfree c hc hname
    have hown : own.reverse.lookup column = some v.toJson := by
      refine lookup_of_mem ?_ (List.mem_reverse.mpr (List.mem_map.mpr ⟨(column, v), ?_, rfl⟩))
      · rw [List.map_reverse, List.nodup_reverse, hownKeys]
        exact r.values.nodup_keys
      · obtain ⟨front, back, hsplit, -⟩ := List.lookup_eq_some_iff.mp hget
        rw [hsplit]
        exact List.mem_append_right _ List.mem_cons_self
    exact ⟨v, hv, by rw [hlookup, hbelow, hown]; rfl⟩

end LoadTree

/-- What is emitted are records of the plan's nodes. -/
theorem Plan.Emits.exists_record (hf : p.Forest a) (h : p.Emits a t q) :
    t ∈ p.tree.subtrees ∧ ∃ r, a.log[q]? = some r ∧ r.node = t.info.id := by
  induction h with
  | root hq =>
    obtain ⟨r, hr, hnone⟩ := hf.inStep.mem_roots.mp hq
    obtain ⟨u, -, hid, -, hangs, -⟩ := hf.placed _ r hr
    rw [hnone] at hangs
    exact ⟨LoadTree.mem_subtrees_self _, r, hr, by rw [← hid, show u.info = p.tree.info from hangs]⟩
  | child _ hc hx ih =>
    obtain ⟨r, hr, hnode, -⟩ := hf.inStep.mem_childrenOf.mp ((LoadTree.emitted_sublist _ _).mem hx)
    exact ⟨LoadTree.subtrees_trans ih.1 (LoadTree.mem_subtrees_of_mem_children hc), r, hr, hnode⟩

/-- Every node of a draft loads an entity. -/
theorem Schema.Compiling.loads (h : s.Compiling req root hops d) : ∀ n ∈ d.nodes, ∃ e, s.Loads n e := by
  induction h with
  | start =>
    intro n hn
    obtain rfl := List.mem_singleton.mp hn
    exact ⟨root, rfl, rfl, rfl⟩
  | reuse _ _ ih => exact ih
  | @attach hops d d' id parent n _ _ _ _ ha ih =>
    intro m hm
    obtain ⟨hroot, hothers⟩ := Hop.nodes_of_attach ha
    rw [Draft.nodes, hroot, hothers, List.mem_cons, List.mem_append, List.mem_singleton] at hm
    rcases hm with rfl | hm | rfl
    · exact ih _ List.mem_cons_self
    · exact ih m (List.mem_cons_of_mem _ hm)
    · obtain ⟨a, -, rfl, -⟩ := Hop.attach_eq_ok ha
      exact ⟨(s.relation id).target, rfl, rfl, rfl⟩

namespace Draft

/-- A child has the name of a relation that starts at the entity of its node and ends at its own. -/
theorem TreeMatches.exists_relation (htree : d.TreeMatches) (hd : d.Rooted s hops)
    (ht : t ∈ d.tree.subtrees) (hc : c ∈ t.children) :
    ∃ id : s.RelationId, t.info.entity = (s.relation id).source ∧
      c.info.entity = (s.relation id).target ∧ c.info.name = (s.relation id).name := by
  obtain ⟨-, hother, hnode, hparent⟩ := htree.child ht hc
  obtain ⟨m, hm, hbelow, -, id, -, hsource, htarget, hname, -⟩ := hd.below _ hother
  have hsame : m = t.info := hd.eq_of_id_eq hm hnode (Option.some.inj (hbelow.symm.trans hparent))
  exact ⟨id, hsame ▸ hsource, htarget, hname⟩

/-- Where no source has two relations of one name, the children of a node have distinct names. -/
theorem TreeMatches.nodup_names (htree : d.TreeMatches) (hd : d.Rooted s hops)
    (hapart : s.relations.Pairwise (¬ ·.Clashes ·)) (ht : t ∈ d.tree.subtrees) :
    (t.children.map (·.info.name)).Nodup := by
  have hentities : (t.children.map (·.info.entity)).Nodup := by
    have hmap := congrArg (List.map (·.entity)) (htree.children t ht)
    rw [List.map_map] at hmap
    exact hmap ▸ hd.distinct.sublist (List.filter_sublist.map _)
  rw [List.Nodup, List.pairwise_map] at hentities ⊢
  refine hentities.imp_of_mem fun {c c'} hc hc' hne hname => hne ?_
  obtain ⟨id, hsource, htarget, hid⟩ := htree.exists_relation hd ht hc
  obtain ⟨id', hsource', htarget', hid'⟩ := htree.exists_relation hd ht hc'
  have hsame : id = id' := Relation.Clashes.eq hapart
    ⟨Fin.ext (hsource.symm.trans hsource'), hid.symm.trans (hname.trans hid')⟩
  rw [htarget, htarget', hsame]

end Draft

/-- A hydrator of a compiled plan emits an object for each root record and, nested in it, for the records
below. -/
theorem compile_shows {entities : List Entity} {declarations : List Declaration}
    (hbuild : Schema.build entities declarations = .ok s) (hcompile : s.compile req = .ok p)
    {reads : List (RowSource × Row)} {h : Hydrator} (hreads : p.Reads reads h) :
    p.finish h.arena = h.arena.roots.map (p.tree.recordJson h.arena) ∧
      ∀ t q, p.Emits h.arena t q → ∃ e r row fields, s.Loads t.info e ∧
        h.arena.records[q]? = some r.toRecord ∧ h.arena.find? r.node r.parent r.key = some q ∧
        (t.info.source, row) ∈ reads ∧ t.info.MakesOf row r ∧
        t.Shows h.arena q row fields ∧
        (s.NamesApart → ∀ column ∈ (s.entity e).columns,
          ∃ v, row.named (t.info.label column) = .ok v ∧ fields.lookup column = some v.toJson) := by
  have hp := Schema.compile_staged hcompile
  have hf := (Plan.Reaches.keeps hp (Plan.Reads.reaches_iff.mpr ⟨_, hreads⟩)).forest
  have hapart : s.relations.Pairwise (¬ ·.Clashes ·) := by
    obtain ⟨-, relations, rfl, -, hapart, -⟩ := Schema.build_eq_ok.mp hbuild
    exact hapart
  obtain ⟨root, d, -, hd, rfl⟩ := Schema.compile_eq_ok hcompile
  refine ⟨rfl, fun t q hemits => ?_⟩
  obtain ⟨ht, r, hr, hnode⟩ := hemits.exists_record hf
  obtain ⟨source, row, hread, u, hu, rfl, hmakes⟩ := hreads.makes hp r (List.mem_of_getElem? hr)
  obtain rfl : u = t := LoadTree.eq_of_id_eq hp.ids hu ht (hmakes.node.symm.trans hnode)
  have hmem : u.info ∈ d.nodes := hd.treeMatches.nodes.mem_iff.mp (LoadTree.info_mem_nodes ht)
  obtain ⟨e, hloads⟩ := hd.loads u.info hmem
  obtain ⟨fields, hshows⟩ :=
    LoadTree.exists_shows (record_of_log hr) hmakes (hd.treeMatches.nodup_names hd.rooted hapart ht)
  refine ⟨e, r, row, fields, hloads, record_of_log hr, hf.find?_of_log hr, hread, hmakes, hshows, fun hnames column hcolumn => ?_⟩
  refine hshows.column column (hloads.columns ▸ hcolumn) fun c hc hname => ?_
  obtain ⟨id, hsource, -, hid⟩ := hd.treeMatches.exists_relation hd.rooted ht hc
  have hentity : e = (s.relation id).source := Fin.ext (hloads.entity.symm.trans hsource)
  exact hnames id (hid ▸ hname ▸ hentity ▸ hcolumn)

/-- Users, and posts that hold the key of their author in a column. -/
def bylineEntities : List Entity :=
  [.declare "User" "user" "id" [], .declare "Post" "post" "id" ["author"]]

/-- The relation from a post to its author, under some name. -/
def bylineDeclarations (name : String) : List Declaration :=
  [⟨"Post", name, "User", .one, [("author", "id")], none, none⟩]

/-- The schema that is built of them. -/
def byline (name : String) : Schema :=
  .ofRelations bylineEntities
    [⟨name, ⟨1, by decide⟩, ⟨0, by decide⟩, .one, [("author", "id")], none, none⟩]

theorem byline_build (name : String) :
    Schema.build bylineEntities (bylineDeclarations name) = .ok (byline name) := rfl

/-- A post whose author is not there any more. -/
def bylineRow : Row := .ofValues [("p0.id", .text "p"), ("p0.author", .text "u"), ("u1.id", .null)]

/-- Under a name of its own, the author stands beside the column. -/
theorem byline_writer_shows : ∃ p h,
    (byline "writer").compile { Request.forModel "Post" with relations := ["writer"] } = .ok p ∧
    p.Reads [(.primary, bylineRow)] h ∧ p.Emits h.arena p.tree 0 ∧
    ∃ fields, p.tree.recordJson h.arena 0 = .obj fields ∧ ∀ column ∈ ["id", "author"],
      ∃ v, bylineRow.named (p.tree.info.label column) = .ok v ∧
        fields.lookup column = some v.toJson := by
  have hcalls : ∃ p, (byline "writer").compile
        { Request.forModel "Post" with relations := ["writer"] } = .ok p ∧
      (p.absorbPrimary bylineRow .empty).2.roots = [0] ∧ p.tree.info.columns = ["id", "author"] :=
    ⟨_, by cbv, by cbv, by cbv⟩
  obtain ⟨p, hcompile, hroots, hcolumns⟩ := hcalls
  have hreads : p.Reads [(.primary, bylineRow)] ⟨(p.absorbPrimary bylineRow .empty).2, []⟩ :=
    .primary .start rfl
  have hemits : p.Emits (p.absorbPrimary bylineRow .empty).2 p.tree 0 := .root (by simp [hroots])
  obtain ⟨-, hall⟩ := compile_shows (byline_build "writer") hcompile hreads
  obtain ⟨e, r, row, fields, hloads, -, -, hread, -, hshows, hshown⟩ := hall p.tree 0 hemits
  obtain ⟨-, rfl⟩ := Prod.mk.inj (List.mem_singleton.mp hread)
  rw [← hloads.columns, hcolumns] at hshown
  exact ⟨p, _, hcompile, hreads, hemits, fields, hshows.object, hshown (by decide)⟩

/-- A relation that has the name of a column hides it, also where it leads to no row. -/
theorem byline_author_lost :
    Schema.build bylineEntities (bylineDeclarations "author") = .ok (byline "author") ∧ ∃ p,
    (byline "author").compile { Request.forModel "Post" with relations := ["author"] } = .ok p ∧
    p.root.columns = ["id", "author"] ∧ bylineRow.named (p.root.label "author") = .ok (.text "u") ∧
    p.Reads [(.primary, bylineRow)] ⟨(p.absorbPrimary bylineRow .empty).2, []⟩ ∧
    p.finish (p.absorbPrimary bylineRow .empty).2 = [.obj [("author", .null), ("id", .str "p")]] :=
  ⟨byline_build _, _, by cbv, by cbv, by cbv, .primary .start rfl, by cbv⟩

end EagerLoad
