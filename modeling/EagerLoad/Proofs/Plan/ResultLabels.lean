import EagerLoad.Proofs.Maps
import EagerLoad.Proofs.Plan.Selected

/-!
# Labels of result columns

A statement of a plan selects the columns of the nodes that are read from it, one node after the other, and
a batch before that its link. The nodes have aliases of their own and the columns of a node are distinct, so
a label comes twice only where a column of the node that opens a batch has the name of one of its link.
-/

namespace EagerLoad

open Sql

/-- Where the names of a row are distinct, looking up a name reads the column that stands at its position. -/
theorem Row.named_eq_atIndex {row : Row} {i : Nat} {name : String} (h : row.names.Nodup)
    (hi : row.names[i]? = some name) : row.named name = row.atIndex i := by
  rw [names, List.getElem?_map, Option.map_eq_some_iff] at hi
  obtain ⟨⟨_, v⟩, hcolumn, rfl⟩ := hi
  have hlookup := lookup_of_mem h (List.mem_of_getElem? hcolumn)
  rw [named, atIndex, hcolumn, hlookup]

namespace Sql

/-- The label of what is selected; the columns of an alias taken together have none. -/
def Projection.label? : Projection → Option String
  | .column _ label => label
  | .everything _ => none

/-- The labels of some columns, in order. -/
def Projection.labels (projections : List Projection) : List String :=
  projections.filterMap Projection.label?

/-- Everything that a statement selects has a label, no two have the same, and in a row of the statement
looking up a label reads the column that stands at the label's position. -/
structure Select.LabelsApart (q : Select) : Prop where
  all : (Projection.labels q.projections).length = q.projections.length
  distinct : (Projection.labels q.projections).Nodup
  reads : ∀ row : Row, row.names = Projection.labels q.projections → ∀ (i : Nat) (label : String),
    (Projection.labels q.projections)[i]? = some label → row.named label = row.atIndex i

namespace Projection

variable {q : Select} {projections more : List Projection} {tableAlias : String} {columns : List String}
  {link : List Column} {nodes : List Node}

theorem labels_append : labels (projections ++ more) = labels projections ++ labels more :=
  List.filterMap_append

theorem labels_map {α : Type} (l : List α) (column : α → Column) (label : α → String) :
    labels (l.map fun a => .column (column a) (some (label a))) = l.map label := by
  rw [labels, List.filterMap_map]
  exact List.filterMap_eq_map.symm ▸ rfl

theorem labels_labelledColumns :
    labels (labelledColumns tableAlias columns) = columns.map (columnLabel tableAlias) :=
  labels_map columns _ _

theorem labels_ofLink :
    labels (ofLink tableAlias link) =
      (List.range link.length).map fun i => columnLabel tableAlias (linkName i) := by
  let linkLabels := (List.range link.length).map fun i => columnLabel tableAlias (linkName i)
  have hlength : linkLabels.length = link.length := by rw [List.length_map, List.length_range]
  have hmap := labels_map (link.zip linkLabels) (·.1) (·.2)
  exact hmap.trans (List.map_snd_zip hlength.le)

/-- Every column has a label. -/
def AllLabelled (projections : List Projection) : Prop :=
  ∀ projection ∈ projections, projection.label?.isSome = true

theorem length_labels (h : AllLabelled projections) : (labels projections).length = projections.length := by
  rw [labels, List.filterMap_length_eq_length]
  exact h

end Projection

/-- Where everything has a label, it is enough that no two have the same. -/
theorem Select.labelsApart_iff {q : Select} (h : Projection.AllLabelled q.projections) :
    q.LabelsApart ↔ (Projection.labels q.projections).Nodup := by
  refine ⟨LabelsApart.distinct, fun hdistinct => ⟨Projection.length_labels h, hdistinct, ?_⟩⟩
  intro row hnames i label hi
  rw [← hnames] at hdistinct hi
  exact row.named_eq_atIndex hdistinct hi

end Sql

/-- The columns of some nodes, one node after the other. -/
def nodeColumns (nodes : List Node) : List Projection :=
  nodes.flatMap fun n => labelledColumns n.tableAlias n.columns

section NodeColumns

open Projection

variable {nodes : List Node} {opener : Node} {link : List Column}

theorem labels_nodeColumns (nodes : List Node) :
    labels (nodeColumns nodes) = nodes.flatMap fun n => n.columns.map n.label := by
  induction nodes with
  | nil => rfl
  | cons n rest ih =>
    rw [nodeColumns, List.flatMap_cons, labels_append, labels_labelledColumns, List.flatMap_cons]
    exact congrArg _ ih

theorem allLabelled_nodeColumns (nodes : List Node) : AllLabelled (nodeColumns nodes) := by
  intro projection hmem
  obtain ⟨n, -, hmem⟩ := List.mem_flatMap.mp hmem
  obtain ⟨column, -, rfl⟩ := List.mem_map.mp hmem
  rfl

/-- Nodes whose labels can be told apart: their aliases differ and have no dot, and their columns differ. -/
structure Apart (nodes : List Node) : Prop where
  aliases : (nodes.map (·.tableAlias)).Nodup
  dotless : ∀ n ∈ nodes, '.' ∉ n.tableAlias.toList
  columns : ∀ n ∈ nodes, n.columns.Nodup

theorem Apart.sublist {part : List Node} (h : Apart nodes) (hsub : part.Sublist nodes) : Apart part :=
  ⟨h.aliases.sublist (hsub.map _), fun n hn => h.dotless n (hsub.subset hn),
    fun n hn => h.columns n (hsub.subset hn)⟩

/-- A label tells the node and the column. -/
theorem Apart.eq_of_label_eq (h : Apart nodes) {n m : Node} (hn : n ∈ nodes) (hm : m ∈ nodes)
    {column other : String} (heq : n.label column = m.label other) : n = m ∧ column = other := by
  obtain ⟨halias, hcolumn⟩ := columnLabel_inj (h.dotless n hn) (h.dotless m hm) heq
  exact ⟨List.inj_on_of_nodup_map h.aliases hn hm halias, hcolumn⟩

/-- No label of the columns of nodes comes twice. -/
theorem Apart.nodup_labels (h : Apart nodes) : (labels (nodeColumns nodes)).Nodup := by
  rw [labels_nodeColumns, List.nodup_flatMap]
  refine ⟨fun n hn => ?_, ?_⟩
  · exact (h.columns n hn).map_on fun c _ c' _ heq => (h.eq_of_label_eq hn hn heq).2
  · refine (List.pairwise_map.mp h.aliases).imp_of_mem fun {n m} hn hm hne => ?_
    refine List.disjoint_left.mpr fun label hlabel hlabel' => ?_
    obtain ⟨column, -, rfl⟩ := List.mem_map.mp hlabel
    obtain ⟨other, -, heq⟩ := List.mem_map.mp hlabel'
    exact hne (congrArg (·.tableAlias) (h.eq_of_label_eq hm hn heq).1.symm)

/-- No label of a batch comes twice exactly if no column of the node that opens it has the name of one of its
link. -/
theorem Apart.nodup_labels_ofLink (h : Apart nodes) (hopener : opener ∈ nodes) :
    (labels (ofLink opener.tableAlias link ++ nodeColumns nodes)).Nodup ↔
      ∀ j < link.length, linkName j ∉ opener.columns := by
  have hlink : ((List.range link.length).map fun i => columnLabel opener.tableAlias (linkName i)).Nodup :=
    List.nodup_range.map fun i j hij => linkName_injective (h.eq_of_label_eq hopener hopener hij).2
  rw [labels_append, labels_ofLink, List.nodup_append]
  simp only [hlink, h.nodup_labels, true_and]
  constructor
  · intro hapart j hj hmem
    refine hapart _ (List.mem_map.mpr ⟨j, List.mem_range.mpr hj, rfl⟩) (opener.label (linkName j)) ?_ rfl
    rw [labels_nodeColumns]
    exact List.mem_flatMap.mpr ⟨opener, hopener, List.mem_map_of_mem hmem⟩
  · intro hnames label hlabel label' hlabel' heq
    obtain ⟨j, hj, rfl⟩ := List.mem_map.mp hlabel
    rw [labels_nodeColumns] at hlabel'
    obtain ⟨n, hn, hlabel'⟩ := List.mem_flatMap.mp hlabel'
    obtain ⟨column, hcolumn, rfl⟩ := List.mem_map.mp hlabel'
    obtain ⟨rfl, rfl⟩ := h.eq_of_label_eq hopener hn heq
    exact hnames j (List.mem_range.mp hj) hcolumn

theorem allLabelled_ofLink (a : String) (link : List Column) (nodes : List Node) :
    AllLabelled (ofLink a link ++ nodeColumns nodes) := by
  intro projection hmem
  rcases List.mem_append.mp hmem with hmem | hmem
  · obtain ⟨i, c, -, rfl⟩ := mem_ofLink.mp hmem
    rfl
  · exact allLabelled_nodeColumns nodes projection hmem

end NodeColumns

variable {s : Schema} {r : Request} {root : s.EntityId} {hops : List s.RelationId} {d d' : Draft}
  {id : s.RelationId} {m n : Node} {notes : Notes} {a : Attachment} {source : RowSource} {p : Plan}

/-- A hop that is placed in a batch opens it, and the statement of the batch selects the link and the columns
of the hop. -/
theorem Schema.batch_of_place (h : (s.hop r m id).place r d = .ok a) (hstrategy : a.strategy = .batched) :
    ∃ batch tables, a.source = .batch d.batches.length ∧ a.tableAlias ∈ d.aliases.takeAll tables ∧
      a.draft = { d with aliases := d.aliases.after tables, batches := d.batches ++ [batch] } ∧
      batch.statement.projections = Projection.ofLink a.tableAlias batch.link ++
        labelledColumns a.tableAlias (s.target id).columns := by
  rcases Hop.place_cases h with ⟨-, rfl⟩ | ⟨-, selfKey, -, -, h⟩ | ⟨-, limit, -, h⟩ | ⟨-, -, h⟩
  · obtain ⟨_, _, _, -, -, -, -, ha⟩ := s.joinDirect_eq r id m d
    rw [ha] at hstrategy
    cases hstrategy
  · obtain ⟨_, -, -, ha⟩ := joinSelf_eq h
    rw [ha] at hstrategy
    cases hstrategy
  · obtain ⟨_, _, _, _, -, -, -, -, ha⟩ := joinLateral_eq h
    rw [ha] at hstrategy
    cases hstrategy
  · obtain ⟨middle, tables, order, -, hnew, -, ha⟩ := loadBatch_eq h
    exact ⟨_, tables, congrArg (·.source) ha, hnew ▸ List.mem_cons_self, congrArg (·.draft) ha, rfl⟩

namespace Draft

/-- The nodes that are read from a source, in order of number. -/
def readFrom (d : Draft) (source : RowSource) : List Node :=
  d.nodes.filter fun n => n.source = source

theorem readFrom_concat (h : d'.nodes = d.nodes ++ [n]) (source : RowSource) :
    d'.readFrom source = d.readFrom source ++ if n.source = source then [n] else [] := by
  rw [readFrom, h, List.filter_append]
  by_cases hsource : n.source = source <;> simp [readFrom, hsource]

theorem nodeColumns_readFrom_concat (h : d'.nodes = d.nodes ++ [n]) (source : RowSource) :
    nodeColumns (d'.readFrom source) = nodeColumns (d.readFrom source) ++
      if n.source = source then labelledColumns n.tableAlias n.columns else [] := by
  rw [readFrom_concat h, nodeColumns, List.flatMap_append]
  by_cases hsource : n.source = source <;> simp [nodeColumns, hsource]

/-- Each statement of a draft selects the columns of the nodes that are read from it, one node after the
other, and that of a batch before them its link, under the alias of the node that opens it. -/
structure Lists (d : Draft) : Prop where
  apart : Apart d.nodes
  primary : d.primary.projections = nodeColumns (d.readFrom .primary)
  batch : ∀ i b, d.batches[i]? = some b → ∃ opener ∈ d.others, opener.strategy = .batched ∧
    opener.source = .batch i ∧
    b.statement.projections =
      Projection.ofLink opener.tableAlias b.link ++ nodeColumns (d.readFrom (.batch i))

theorem Lists.start (hdeclared : s.Declared) (root : s.EntityId) : (s.rootDraft root).Lists := by
  have hgiven : (s.rootDraft root).aliases.Given (s.rootDraft root).root.tableAlias :=
    AliasSupply.given_take _ _
  have honly {n : Node} (hn : n ∈ (s.rootDraft root).nodes) : n = (s.rootDraft root).root :=
    List.mem_singleton.mp hn
  constructor
  case apart =>
    exact ⟨List.nodup_singleton _, fun n hn => honly hn ▸ hgiven.dotless,
      fun n hn => honly hn ▸ (hdeclared _ (List.getElem_mem _)).2⟩
  case primary => exact (List.append_nil _).symm
  case batch => simp [Schema.rootDraft]

section Attaching

variable (h : d.Lists) (hgiven : ∀ k ∈ d.nodes, d.aliases.Given k.tableAlias)
  (hn : n = (s.hop r m id).node d a) (hd' : d' = { a.draft with others := d.others ++ [n], notes }.entrust n)
  (hroot : d'.root = d.root)

include h hgiven hn hd' hroot

/-- A node with a new alias is told from the others. -/
private theorem Lists.apart_attach (hdeclared : s.Declared) {tables : List String}
    (hown : a.tableAlias ∈ d.aliases.takeAll tables) :
    d'.nodes = d.nodes ++ [n] ∧ Apart d'.nodes := by
  have hothers : d'.others = d.others ++ [n] := by rw [hd', Draft.others_entrust]
  have hnodes : d'.nodes = d.nodes ++ [n] := by simp [Draft.nodes, hroot, hothers]
  obtain ⟨hnew, hfresh⟩ := AliasSupply.given_of_mem_takeAll hown
  have halias : n.tableAlias = a.tableAlias := hn ▸ rfl
  refine ⟨hnodes, ?_⟩
  rw [hnodes]
  constructor
  case aliases =>
    rw [List.map_append, List.map_singleton]
    refine List.Nodup.append h.apart.aliases (List.nodup_singleton _) ?_
    rw [List.disjoint_singleton]
    rintro hmem
    obtain ⟨k, hk, heq⟩ := List.mem_map.mp hmem
    exact hfresh (halias ▸ heq ▸ hgiven k hk)
  case dotless =>
    exact List.forall_mem_append.mpr ⟨h.apart.dotless, List.forall_mem_singleton.mpr (halias ▸ hnew.dotless)⟩
  case columns =>
    have hcolumns : n.columns.Nodup := hn ▸ (hdeclared _ (List.getElem_mem _)).2
    exact List.forall_mem_append.mpr ⟨h.apart.columns, List.forall_mem_singleton.mpr hcolumns⟩

/-- Joining a node into the statement of its parent. -/
theorem Lists.join (hdeclared : s.Declared) {joins : List Join} {tables : List String}
    (hj : s.JoinsInto r id d m a joins tables) : d'.Lists := by
  obtain ⟨hnodes, hapart⟩ := h.apart_attach hgiven hn hd' hroot hdeclared hj.own
  have hothers : d'.others = d.others ++ [n] := by rw [hd', Draft.others_entrust]
  have hsource : n.source = m.source := hn ▸ hj.source
  have hcolumns : labelledColumns a.tableAlias (s.target id).columns =
      labelledColumns n.tableAlias n.columns := hn ▸ rfl
  have hnew : d' = ({ d with aliases := d.aliases.after tables, others := d.others ++ [n], notes }.modify
      m.source (Select.bringIn joins a.tableAlias (s.target id).columns)).entrust n := by
    obtain ⟨_, hdraft⟩ := hj.draft
    rw [hd', hdraft]
    cases m.source <;> rfl
  constructor
  case apart => exact hapart
  case primary =>
    rw [nodeColumns_readFrom_concat hnodes, ← h.primary, hsource, ← hcolumns, hnew, Draft.primary_entrust]
    cases m.source <;> simp [Draft.modify, Select.bringIn]
  case batch =>
    intro i b hb
    rw [hnew] at hb
    obtain ⟨b₀, hb₀, rfl⟩ := batch_of_join hb
    obtain ⟨opener, hopener, hstrategy, hread, hprojections⟩ := h.batch i b₀ hb₀
    refine ⟨opener, hothers ▸ List.mem_append_left _ hopener, hstrategy, hread, ?_⟩
    rw [nodeColumns_readFrom_concat hnodes, ← List.append_assoc, hsource, ← hcolumns]
    dsimp only
    rw [← hprojections]
    split <;> simp [Select.bringIn]

/-- Opening a batch. -/
theorem Lists.openOwn (hdeclared : s.Declared) (hs : d.Sourced)
    (hplace : (s.hop r m id).place r d = .ok a) (hbatched : a.strategy = .batched) : d'.Lists := by
  obtain ⟨batch, tables, hread, hown, hdraft, hprojections⟩ := Schema.batch_of_place hplace hbatched
  obtain ⟨hnodes, hapart⟩ := h.apart_attach hgiven hn hd' hroot hdeclared hown
  have hothers : d'.others = d.others ++ [n] := by rw [hd', Draft.others_entrust]
  have halias : n.tableAlias = a.tableAlias := hn ▸ rfl
  have hsource : n.source = .batch d.batches.length := hn ▸ hread
  have hstrategy : n.strategy = .batched := hn ▸ hbatched
  have hcolumns : labelledColumns a.tableAlias (s.target id).columns =
      labelledColumns n.tableAlias n.columns := hn ▸ rfl
  have hprimary : d'.primary = d.primary := by rw [hd', Draft.primary_entrust, hdraft]
  have hbatches : ({ a.draft with others := d.others ++ [n], notes } : Draft).batches = d.batches ++ [batch] := by
    rw [hdraft]
  constructor
  case apart => exact hapart
  case primary =>
    rw [nodeColumns_readFrom_concat hnodes, ← h.primary, hprimary, hsource]
    simp
  case batch =>
    intro i b hb
    rw [hd'] at hb
    obtain ⟨b₀, rfl, ⟨rfl, rfl⟩ | hb₀⟩ := batch_of_open hbatches hb
    · -- Nothing else is read from the new batch.
      have hnone : d.readFrom (.batch d.batches.length) = [] := by
        refine List.filter_eq_nil_iff.mpr fun k hk hread => ?_
        exact absurd (hs.lt_of_source hk (of_decide_eq_true hread)) (lt_irrefl _)
      refine ⟨n, hothers ▸ List.mem_append_right _ (List.mem_singleton_self n), hstrategy, hsource, ?_⟩
      have hadded := nodeColumns_readFrom_concat hnodes (.batch d.batches.length)
      rw [hnone, if_pos hsource, ← hcolumns] at hadded
      rw [hadded, halias]
      exact hprojections
    · obtain ⟨opener, hopener, hopens, hread, hprojections⟩ := h.batch i b₀ hb₀
      have hlt : i < d.batches.length := (List.getElem?_eq_some_iff.mp hb₀).1
      have hother : n.source ≠ .batch i := by
        rw [hsource, ne_eq, RowSource.batch.injEq]
        omega
      refine ⟨opener, hothers ▸ List.mem_append_left _ hopener, hopens, hread, ?_⟩
      have hadded := nodeColumns_readFrom_concat hnodes (.batch i)
      rw [if_neg hother, List.append_nil] at hadded
      rw [hadded]
      exact hprojections

end Attaching

end Draft

/-- In every draft that a compilation passes through, the statements list the columns of their nodes. -/
theorem Schema.Compiling.lists (h : s.Compiling r root hops d) (hdeclared : s.Declared) : d.Lists := by
  induction h with
  | start => exact .start hdeclared root
  | reuse _ _ ih => exact ih
  | attach h _ _ _ ha ih =>
    obtain ⟨a, hplace, hn, hd'⟩ := Hop.attach_eq_ok ha
    obtain ⟨hroot, -⟩ := Hop.nodes_of_attach ha
    have hgiven := h.projecting.given
    rcases Schema.joinsInto_or_opensOwn hplace with ⟨joins, tables, hj⟩ | ⟨batch, tables, ho⟩
    · exact ih.join hgiven hn hd' hroot hdeclared hj
    · exact ih.openOwn hgiven hn hd' hroot hdeclared h.sourced hplace ho.strategy

/-- The nodes of a plan that are read from a source, in order of number. -/
def Plan.readFrom (p : Plan) (source : RowSource) : List Node :=
  p.nodes.filter fun n => n.source = source

/-- If entities are declared with distinct columns, then the primary statement of a compiled plan selects the
columns of its nodes, and no label comes twice in it, so that looking up a label reads the column it was made for. A batch selects its link and the columns of its
nodes, and no label comes twice in it exactly if the node that opens it has no column with the name of one of
the link. Neither is changed by a page or by the keys of parents. -/
theorem compile_labelsApart (hdeclared : s.Declared) (hcompile : s.compile r = .ok p) :
    (p.primary.projections = nodeColumns (p.readFrom .primary) ∧ p.primary.LabelsApart ∧
      ∀ predicates ordering limit offset, (p.selectFor predicates ordering limit offset).LabelsApart) ∧
    ∀ i b, p.batches[i]? = some b → ∃ opener ∈ p.others, opener.strategy = .batched ∧
      opener.source = .batch i ∧
      b.statement.projections =
        Projection.ofLink opener.tableAlias b.link ++ nodeColumns (p.readFrom (.batch i)) ∧
      (b.statement.LabelsApart ↔ ∀ j < b.link.length, linkName j ∉ opener.columns) ∧
      ∀ keys, (b.forParents keys).LabelsApart ↔ ∀ j < b.link.length, linkName j ∉ opener.columns := by
  obtain ⟨root, d, -, hd, rfl⟩ := Schema.compile_eq_ok hcompile
  have hlists := hd.lists hdeclared
  have hpart (source : RowSource) : Apart (d.readFrom source) := hlists.apart.sublist List.filter_sublist
  have hprimary (q : Select) (hq : q.projections = d.primary.projections) : q.LabelsApart := by
    rw [hlists.primary] at hq
    rw [Select.labelsApart_iff (hq ▸ allLabelled_nodeColumns _), hq]
    exact (hpart .primary).nodup_labels
  refine ⟨⟨hlists.primary, hprimary _ rfl, fun predicates ordering limit offset => hprimary _ ?_⟩,
    fun i b hb => ?_⟩
  · unfold Plan.selectFor
    dsimp only
    split <;> rfl
  · obtain ⟨opener, hopener, hstrategy, hsource, hprojections⟩ := hlists.batch i b hb
    have hread : opener ∈ d.readFrom (.batch i) :=
      List.mem_filter.mpr ⟨List.mem_cons_of_mem _ hopener, decide_eq_true hsource⟩
    have hbatch (q : Select) (hq : q.projections = b.statement.projections) :
        q.LabelsApart ↔ ∀ j < b.link.length, linkName j ∉ opener.columns := by
      rw [hprojections] at hq
      rw [Select.labelsApart_iff (hq ▸ allLabelled_ofLink _ _ _), hq]
      exact (hpart (.batch i)).nodup_labels_ofLink hread
    exact ⟨opener, hopener, hstrategy, hsource, hprojections, hbatch _ rfl, fun keys => hbatch _ rfl⟩

/-- Users and posts have no column with the name of a link, and are told apart in both batches of a role's
posts. -/
theorem forum_labelsApart :
    forum.Declared ∧ ∃ p, forum.compile { Request.forModel "Role" with relations := ["posts"], limit := none } = .ok p ∧
      p.batches.length = 2 ∧ p.primary.LabelsApart ∧ ∀ b ∈ p.batches, b.statement.LabelsApart := by
  have hcompile : ∃ p, forum.compile
        { Request.forModel "Role" with relations := ["posts"], limit := none } = .ok p ∧
      p.batches.length = 2 ∧ p.batches.map (·.link.length) = [1, 1] ∧
      p.others.map (·.columns) = [["uuid", "name", "role_uuid"], ["uuid", "title", "author_uuid"]] :=
    ⟨_, by cbv, by cbv, by cbv, by cbv⟩
  obtain ⟨p, hp, hlength, hlinks, hcolumns⟩ := hcompile
  obtain ⟨⟨-, hprimary, -⟩, hbatches⟩ := compile_labelsApart forum_declared hp
  refine ⟨forum_declared, p, hp, hlength, hprimary, fun b hb => ?_⟩
  obtain ⟨i, hi⟩ := List.mem_iff_getElem?.mp hb
  obtain ⟨opener, hopener, -, -, -, hiff, -⟩ := hbatches i b hi
  have hlink : b.link.length ∈ p.batches.map (·.link.length) := List.mem_map_of_mem hb
  have hmem : opener.columns ∈ p.others.map (·.columns) := List.mem_map_of_mem hopener
  rw [hlinks] at hlink
  rw [hcolumns] at hmem
  refine hiff.mpr fun j hj => ?_
  obtain rfl : j = 0 := by simp at hlink; omega
  simp only [List.mem_cons, List.not_mem_nil, or_false] at hmem
  rcases hmem with h | h <;> rw [h] <;> decide

/-- Accounts, and entries with a column that has the name of a link. -/
def ledgerEntities : List Entity :=
  [.declare "Account" "account" "id" [], .declare "Entry" "entry" "id" ["account_id", "__link0"]]

/-- The relation from an account to its entries. -/
def ledgerDeclarations : List Declaration :=
  [⟨"Account", "entries", "Entry", .many, [("id", "account_id")], none, none⟩]

/-- The schema that is built of them. -/
def ledger : Schema :=
  .ofRelations ledgerEntities
    [⟨"entries", ⟨0, by decide⟩, ⟨1, by decide⟩, .many, [("id", "account_id")], none, none⟩]

/-- The batch of the entries has one label for its link and for the column, and a row of it is read at the
link where the column is looked up. -/
theorem ledger_link_label_twice :
    Schema.build ledgerEntities ledgerDeclarations = .ok ledger ∧ ∃ p b,
    ledger.compile { Request.forModel "Account" with relations := ["entries"], limit := none } = .ok p ∧
    p.batches[0]? = some b ∧
    Projection.labels b.statement.projections = ["e1.__link0", "e1.id", "e1.account_id", "e1.__link0"] ∧
    ¬b.statement.LabelsApart ∧
    let row : Row := .ofValues [("e1.__link0", .text "a"), ("e1.id", .text "b"), ("e1.account_id", .text "a"),
      ("e1.__link0", .text "memo")]
    row.names = Projection.labels b.statement.projections ∧ row.atIndex 3 = .ok (.text "memo") ∧
    row.named "e1.__link0" = .ok (.text "a") := by
  have hplan : ∃ p b, ledger.compile
        { Request.forModel "Account" with relations := ["entries"], limit := none } = .ok p ∧
      p.batches[0]? = some b ∧
      Projection.labels b.statement.projections = ["e1.__link0", "e1.id", "e1.account_id", "e1.__link0"] :=
    ⟨_, _, by cbv, by cbv, by cbv⟩
  obtain ⟨p, b, hcompile, hb, hlabels⟩ := hplan
  refine ⟨rfl, p, b, hcompile, hb, hlabels, fun h => ?_, by rw [hlabels]; rfl, rfl, rfl⟩
  have hdistinct := h.distinct
  rw [hlabels] at hdistinct
  exact absurd hdistinct (by decide)

end EagerLoad
