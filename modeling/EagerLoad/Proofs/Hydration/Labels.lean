import EagerLoad.Proofs.Loading.Batches
import EagerLoad.Proofs.Plan.Selected

/-!
# The labels that hydration looks up

The compiler writes labels into statements, and hydration makes the same labels again from the nodes of
the plan. Every statement of a plan selects what hydration looks up in its rows, whatever page or keys it
is narrowed to. So a row that has the labels of its statement is folded, and nothing else of it is read.
-/

namespace EagerLoad

open Sql Arena

variable {s : Schema} {r : Request} {p : Plan} {n : Node} {t : LoadTree} {row row' : Row}
  {rows rows' : List Row} {source : RowSource} {i : Nat} {b : Batch} {q : Select} {label : String}

/-- A row has a value for every label of a statement. -/
def Row.Carries (q : Select) (row : Row) : Prop :=
  ∀ c label, .column c (some label) ∈ q.projections → ∃ v, row.named label = .ok v

/-- Two rows have the same values for the labels of a statement, or both have none. -/
def Row.AgreeOn (q : Select) (row row' : Row) : Prop :=
  ∀ c label, .column c (some label) ∈ q.projections → row.named label = row'.named label

/-- A statement selects the primary key and every column of the nodes that are read from a source. -/
structure Plan.LabelsOf (p : Plan) (source : RowSource) (q : Select) : Prop where
  /-- Each is selected from the alias of its node, under the label by which it is looked up. -/
  selected : ∀ n ∈ p.nodes, n.source = source → ∀ column ∈ n.primaryKey :: n.columns,
    .column (.of n.tableAlias column) (some (n.label column)) ∈ q.projections
  /-- No other column stands under the label, except that the columns of a batch's link have names of
  their own, which a column of the node may have as well. -/
  only : ∀ n ∈ p.nodes, n.source = source → ∀ column ∈ n.primaryKey :: n.columns,
    source = .primary ∨ (∀ i, column ≠ linkName i) →
    ∀ c, .column c (some (n.label column)) ∈ q.projections → c = .of n.tableAlias column

/-- A statement selects the columns of a batch's link first, each under its own link label. -/
structure Batch.LinkIn (b : Batch) (q : Select) : Prop where
  length_eq : b.linkLabels.length = b.link.length
  distinct : b.linkLabels.Nodup
  first : ∃ more, q.projections =
    (b.link.zip b.linkLabels).map (fun (column, label) => .column column (some label)) ++ more

/-- The statements of a plan select what hydration looks up. -/
structure Plan.LabelsAgree (p : Plan) : Prop where
  primary : ∀ predicates ordering limit offset,
    p.LabelsOf .primary (p.selectFor predicates ordering limit offset)
  batch : ∀ i b, p.batches[i]? = some b → ∀ keys,
    p.LabelsOf (.batch i) (b.forParents keys) ∧ b.LinkIn (b.forParents keys)
  /-- Folding a row fails for no arena if the row has the labels of its statement. -/
  absorbPrimary : ∀ predicates ordering limit offset row,
    row.Carries (p.selectFor predicates ordering limit offset) →
    ∀ a, (p.absorbPrimary row a).1 = .ok ()
  absorbBatch : ∀ i b, p.batches[i]? = some b → ∀ keys rows,
    (∀ row ∈ rows, row.Carries (b.forParents keys)) →
    ∀ pending a, (p.absorbBatch i b pending rows a).1 = .ok ()
  /-- What a row has under other labels makes no difference. -/
  primaryReads : ∀ predicates ordering limit offset row row',
    row.AgreeOn (p.selectFor predicates ordering limit offset) row' →
    p.absorbPrimary row = p.absorbPrimary row'
  batchReads : ∀ i b, p.batches[i]? = some b → ∀ keys rows rows',
    List.Forall₂ (Row.AgreeOn (b.forParents keys)) rows rows' →
    ∀ pending, p.absorbBatch i b pending rows = p.absorbBatch i b pending rows'

/-- Two rows have the same values for the labels of a node, or both have none. -/
def Row.AlikeAt (n : Node) (row row' : Row) : Prop :=
  ∀ column ∈ n.primaryKey :: n.columns, row.named (n.label column) = row'.named (n.label column)

/-- A node reads its own labels only. -/
theorem Node.absorb_congr (h : row.AlikeAt n row') (parent : Option Nat) :
    n.absorb row parent = n.absorb row' parent := by
  have hfold : ∀ columns ⊆ n.columns, ∀ start : KeyMap Value,
      columns.foldlM (fun values column => do
        return values.insert column (← row.named (n.label column))) start =
      columns.foldlM (fun values column => do
        return values.insert column (← row'.named (n.label column))) start := by
    intro columns
    induction columns with
    | nil => exact fun _ _ => rfl
    | cons column rest ih =>
      intro hsub start
      obtain ⟨hcolumn, hrest⟩ := List.cons_subset.mp hsub
      rw [List.foldlM_cons, List.foldlM_cons, h column (List.mem_cons_of_mem _ hcolumn)]
      exact congrArg _ (funext fun values => ih hrest values)
  have hcolumns : n.readColumns row = n.readColumns row' := hfold _ (List.Subset.refl _) _
  funext a
  rw [Node.absorb, Node.absorb, hcolumns, h n.primaryKey List.mem_cons_self]

/-- Folding a row reads the labels of the nodes of its statement only. -/
theorem LoadTree.absorb_congr (hsource : t.info.source = source)
    (h : ∀ u ∈ t.subtrees, u.info.source = source → row.AlikeAt u.info row') (parent : Option Nat) :
    t.absorb row source parent = t.absorb row' source parent := by
  induction t using LoadTree.induction generalizing parent with
  | node n children ih =>
    have hbelow : ∀ part ⊆ children, ∀ q : Nat,
        absorbBelow row source q part = absorbBelow row' source q part := by
      intro part
      induction part with
      | nil => exact fun _ _ => rfl
      | cons c rest ihrest =>
        intro hpart q
        obtain ⟨hc, hrest⟩ := List.cons_subset.mp hpart
        funext a
        rw [absorbBelow, absorbBelow, ihrest hrest q]
        by_cases hcsource : c.info.source = source
        · have hlabels : ∀ u ∈ c.subtrees, u.info.source = source → row.AlikeAt u.info row' :=
            fun u hu => h u (mem_subtrees_node.mpr (.inr ⟨c, hc, hu⟩))
          rw [ih c hc hcsource hlabels]
        · simp only [if_neg hcsource]
    have htop : n.absorb row = n.absorb row' :=
      funext (Node.absorb_congr (h _ (mem_subtrees_self _) hsource))
    funext a
    rw [absorb, absorb, htop]
    simp only [hbelow children (List.Subset.refl _)]

/-- Folding a row under several parents reads the same labels. -/
theorem LoadTree.absorbUnder_congr (hsource : t.info.source = source)
    (h : ∀ u ∈ t.subtrees, u.info.source = source → row.AlikeAt u.info row') (parents : List Nat) :
    t.absorbUnder row source parents = t.absorbUnder row' source parents := by
  induction parents with
  | nil => rfl
  | cons parent rest ih =>
    funext a
    rw [absorbUnder, absorbUnder, LoadTree.absorb_congr hsource h, ih]

/-- Reading columns depends on their values only. -/
theorem Row.mapM_named_congr {labels : List String}
    (h : ∀ label ∈ labels, row.named label = row'.named label) :
    labels.mapM row.named = labels.mapM row'.named := by
  induction labels with
  | nil => rfl
  | cons label rest ih =>
    rw [List.mapM_cons, List.mapM_cons, h label List.mem_cons_self,
      ih fun l hl => h l (List.mem_cons_of_mem _ hl)]

namespace Sql.Projection

variable {projections : List Projection} {tableAlias column : String} {c : Column}

/-- A label made of an alias and a column tells that column. -/
theorem ByAlias.eq_of_mem (h : ByAlias projections) (hdot : '.' ∉ tableAlias.toList)
    (hmem : .column c (some (columnLabel tableAlias column)) ∈ projections) :
    c = .of tableAlias column := by
  obtain ⟨other, name, hother, heq⟩ := h _ hmem
  injection heq with hcolumn hlabel
  obtain ⟨rfl, rfl⟩ := columnLabel_inj hdot hother (Option.some.inj hlabel)
  exact hcolumn

/-- A label of a link is that of a column named like it. -/
theorem eq_linkName_of_mem_ofLink {linkAlias : String} {link : List Column}
    (hdot : '.' ∉ tableAlias.toList) (hlinkDot : '.' ∉ linkAlias.toList)
    (hmem : .column c (some (columnLabel tableAlias column)) ∈ ofLink linkAlias link) :
    ∃ i, column = linkName i := by
  obtain ⟨i, column', -, heq⟩ := mem_ofLink.mp hmem
  injection heq with _ hlabel
  exact ⟨i, (columnLabel_inj hdot hlinkDot (Option.some.inj hlabel)).2⟩

end Sql.Projection

/-- A batch's link is selected by its statement. -/
theorem Batch.SelectsLink.linkIn {tableAlias : String} (h : b.SelectsLink tableAlias)
    (keys : List (List Value)) : b.LinkIn (b.forParents keys) := by
  obtain ⟨columns, -, hprojections⟩ := h.projections
  refine ⟨by simp [h.linkLabels], ?_, columns, ?_⟩
  · rw [h.linkLabels]
    refine List.nodup_range.map fun i j hij => ?_
    exact linkName_injective (columnLabel_inj h.dotless h.dotless hij).2
  · rw [h.linkLabels]
    exact hprojections

/-- Every label of a link is one of the statement. -/
theorem Batch.LinkIn.mem (h : b.LinkIn q) (hlabel : label ∈ b.linkLabels) :
    ∃ c, .column c (some label) ∈ q.projections := by
  obtain ⟨more, hprojections⟩ := h.first
  obtain ⟨i, hi, rfl⟩ := List.mem_iff_getElem.mp hlabel
  have hlink : i < b.link.length := h.length_eq ▸ hi
  refine ⟨b.link[i], hprojections ▸ List.mem_append_left _ (List.mem_map.mpr ?_)⟩
  have hzip : i < (b.link.zip b.linkLabels).length := by
    rw [List.length_zip]
    exact lt_min hlink hi
  exact ⟨(b.link.zip b.linkLabels)[i], List.getElem_mem _, by simp [List.getElem_zip]⟩

namespace Plan.LabelsOf

variable (h : p.LabelsOf source q) (hnodes : ∀ u ∈ p.tree.subtrees, u.info ∈ p.nodes)

include h hnodes

/-- A row with the labels of its statement has those of the nodes that are read from it. -/
theorem has (hrow : row.Carries q) : ∀ u ∈ p.tree.subtrees, u.info.source = source → row.Has u.info :=
  fun u hu hsource column hcolumn => hrow _ _ (h.selected _ (hnodes u hu) hsource column hcolumn)

/-- Rows that agree on the labels of their statement agree on those of the nodes. -/
theorem alike (hrow : row.AgreeOn q row') :
    ∀ u ∈ p.tree.subtrees, u.info.source = source → row.AlikeAt u.info row' :=
  fun u hu hsource column hcolumn => hrow _ _ (h.selected _ (hnodes u hu) hsource column hcolumn)

end Plan.LabelsOf

namespace Draft.Projecting

variable {root : s.EntityId} {d : Draft}

/-- The primary statement selects the labels of its nodes, to whatever page it is cut. -/
theorem labelsOf_selectFor (h : d.Projecting s root) (hdeclared : s.Declared) (predicates : List Condition)
    (ordering : List SortKey) (limit offset : Option Nat) :
    (d.plan s root).LabelsOf .primary
      ((d.plan s root).selectFor predicates ordering limit offset) := by
  have hprojections : ((d.plan s root).selectFor predicates ordering limit offset).projections =
      d.primary.projections := by
    unfold Plan.selectFor
    dsimp only
    split <;> rfl
  constructor
  case selected =>
    intro n hn hsource column hcolumn
    rw [hprojections]
    have hmem : column ∈ n.columns := by
      rcases List.mem_cons.mp hcolumn with rfl | hcolumn
      · exact h.key hdeclared n hn
      · exact hcolumn
    exact h.primary n hn hsource (List.mem_map_of_mem hmem)
  case only =>
    intro n hn _ column _ _ c hc
    exact h.labels.eq_of_mem (h.given n hn).dotless (hprojections ▸ hc)

/-- A batch selects the labels of its nodes, to whatever parents it is narrowed. -/
theorem labelsOf_forParents (h : d.Projecting s root) (hdeclared : s.Declared) (hb : d.batches[i]? = some b)
    (keys : List (List Value)) :
    (d.plan s root).LabelsOf (.batch i) (b.forParents keys) := by
  obtain ⟨linkAlias, hlink⟩ := h.link i b hb
  obtain ⟨columns, hcolumns, hprojections⟩ := hlink.projections
  constructor
  case selected =>
    intro n hn hsource column hcolumn
    have hmem : column ∈ n.columns := by
      rcases List.mem_cons.mp hcolumn with rfl | hcolumn
      · exact h.key hdeclared n hn
      · exact hcolumn
    exact h.batch i b hb n hn hsource (List.mem_map_of_mem hmem)
  case only =>
    intro n hn _ column _ hname c hc
    have hdot := (h.given n hn).dotless
    have hfree := hname.resolve_left (by simp)
    have hc : .column c (some (n.label column)) ∈ b.statement.projections := hc
    rw [hprojections] at hc
    rcases List.mem_append.mp hc with hc | hc
    · obtain ⟨i, hi⟩ := Projection.eq_linkName_of_mem_ofLink hdot hlink.dotless hc
      exact absurd hi (hfree i)
    · exact hcolumns.eq_of_mem hdot hc

end Draft.Projecting

/-- If entities are declared with their keys, then every statement of a compiled plan selects exactly what
hydration looks up in its rows: the primary statement on any page, and every batch for any keys. A row that
has the labels of its statement is always folded. -/
theorem compile_labelsAgree (hs : s.Declared) (hcompile : s.compile r = .ok p) : p.LabelsAgree := by
  have hstaged := Schema.compile_staged hcompile
  obtain ⟨root, d, -, hd, rfl⟩ := Schema.compile_eq_ok hcompile
  have h := hd.projecting
  have hnodes : ∀ u ∈ (d.plan s root).tree.subtrees, u.info ∈ d.nodes :=
    fun u hu => hd.treeMatches.nodes.mem_iff.mp (LoadTree.info_mem_nodes hu)
  have hlink {i : Nat} {b : Batch} (hb : d.batches[i]? = some b) (keys : List (List Value)) :
      b.LinkIn (b.forParents keys) := by
    obtain ⟨linkAlias, hlink⟩ := h.link i b hb
    exact hlink.linkIn keys
  constructor
  case primary => exact h.labelsOf_selectFor hs
  case batch => exact fun i b hb keys => ⟨h.labelsOf_forParents hs hb keys, hlink hb keys⟩
  case absorbPrimary =>
    intro predicates ordering limit offset row hrow a
    have hhas := (h.labelsOf_selectFor hs predicates ordering limit offset).has hnodes hrow
    obtain ⟨a', ha'⟩ := LoadTree.exists_absorb hstaged.root.1 hhas none a
    rw [Plan.absorbPrimary, ha']
  case absorbBatch =>
    intro i b hb keys rows hrows pending a
    have hnamed : ∀ row ∈ rows, ∃ link, b.linkLabels.mapM row.named = .ok link := by
      refine fun row hrow => Row.exists_mapM_named fun label hlabel => ?_
      obtain ⟨c, hc⟩ := (hlink hb keys).mem hlabel
      exact hrows row hrow c label hc
    obtain ⟨a', ha'⟩ := hstaged.exists_absorbBatch hb hnamed
      (fun row hrow => (h.labelsOf_forParents hs hb keys).has hnodes (hrows row hrow)) pending a
    rw [ha']
  case primaryReads =>
    intro predicates ordering limit offset row row' hrow
    have halike := (h.labelsOf_selectFor hs predicates ordering limit offset).alike hnodes hrow
    rw [Plan.absorbPrimary, Plan.absorbPrimary, LoadTree.absorb_congr hstaged.root.1 halike]
  case batchReads =>
    intro i b hb keys rows rows' hrows pending
    obtain ⟨u, hu, hid, hsource⟩ := hstaged.named i b hb
    have hfind : (d.plan s root).tree.find? b.node = some u := hid ▸ LoadTree.find?_id hstaged.ids hu
    induction hrows with
    | nil => rfl
    | @cons row row' rest rest' hrow _ ih =>
      have hread : b.linkLabels.mapM row.named = b.linkLabels.mapM row'.named := by
        refine Row.mapM_named_congr fun label hlabel => ?_
        obtain ⟨c, hc⟩ := (hlink hb keys).mem hlabel
        exact hrow c label hc
      have halike : ∀ v ∈ u.subtrees, v.info.source = .batch i → row.AlikeAt v.info row' :=
        fun v hv => (h.labelsOf_forParents hs hb keys).alike hnodes hrow v (LoadTree.subtrees_trans hu hv)
      have hfold : (d.plan s root).absorbBatchRow i b pending row =
          (d.plan s root).absorbBatchRow i b pending row' := by
        funext a
        simp only [Plan.absorbBatchRow, hread, hfind, LoadTree.absorbUnder_congr hsource halike]
      funext a
      rw [Plan.absorbBatch, Plan.absorbBatch, ih, hfold]

/-- Roles with their users, which a batch loads, and the posts of the users in a further batch. -/
theorem forum_labelsAgree :
    forum.Declared ∧ ∃ p, forum.compile { Request.forModel "Role" with relations := ["posts"], limit := none } = .ok p ∧
      p.batches.length = 2 ∧ p.LabelsAgree := by
  have hcompile : ∃ p, forum.compile
      { Request.forModel "Role" with relations := ["posts"], limit := none } = .ok p ∧
      p.batches.length = 2 := ⟨_, by cbv, by cbv⟩
  obtain ⟨p, hp, hlength⟩ := hcompile
  exact ⟨forum_declared, p, hp, hlength, compile_labelsAgree forum_declared hp⟩

end EagerLoad
