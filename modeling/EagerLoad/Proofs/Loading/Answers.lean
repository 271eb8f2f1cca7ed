import EagerLoad.Proofs.Hydration.Blocks
import EagerLoad.Proofs.Loading.Narrowing
import EagerLoad.Proofs.Loading.Nesting
import EagerLoad.Proofs.Plan.Batches

/-!
# What comes back for all parents

Rows come back as their statements make them of scopes, so the records below which a batch is loaded have
the columns of rows of the parent's table, whatever the page of root rows was. Hence a batch that is put
for these records returns for each of them the same rows as if it were put for all parents.
-/

namespace EagerLoad

open Sql

variable {s : Schema} {r : Request} {db : Database} {root : s.EntityId} {hops : List s.RelationId}
  {d : Draft} {id : s.RelationId} {n : Node} {i : Nat} {b : Batch} {p : Plan} {q : Select}
  {link : List Column} {source : RowSource} {scope : Scope} {column : String} {t c : LoadTree}
  {row : Row} {primary : List Row} {answers : Nat → List Row} {values : KeyMap Value}

namespace Plan

/-- Whether a batch names a node that opened one. -/
def puts (p : Plan) (b : Batch) : Bool :=
  p.others.any fun n => n.id = b.node && n.strategy = .batched

/-- What comes back for a batch if it is put for all parents. -/
def allAnswers (p : Plan) (db : Database) (i : Nat) : List Row :=
  match p.batches[i]? with
  | some b => if p.puts b then b.forAll.rows db else []
  | none => []

/-- A row is made of a scope that its statement goes through. -/
def Made (p : Plan) (db : Database) (source : RowSource) (row : Row) : Prop :=
  ∀ q link, p.statement? source = some (q, link) → ∃ scope ∈ q.scopes db, row = q.rowOf scope

/-- The rows that come back for a batch are made of its scopes. -/
theorem made_of_mem_forParents {keys : List (List Value)} (hb : p.batches[i]? = some b)
    (hrow : row ∈ (b.forParents keys).rows db) : p.Made db (.batch i) row := by
  intro q link hq
  rw [statement?, hb] at hq
  cases hq
  rw [Batch.forParents, Select.rows_filtered] at hrow
  obtain ⟨scope, hscope, rfl⟩ := List.mem_map.mp hrow
  have hscope := (List.mem_insertionSort _).mp (page_subset _ _ _ hscope)
  exact ⟨scope, (List.mem_filter.mp hscope).1, rfl⟩

/-- A row has under a label of a node the cell of its scope. -/
theorem LabelsOf.named_rowOf (h : p.LabelsOf source q)
    (hshape : ∀ x ∈ q.projections, ∃ c label, x = .column c (some label)) (hn : n ∈ p.nodes)
    (hsource : n.source = source) (hcolumn : column ∈ n.primaryKey :: n.columns)
    (hname : source = .primary ∨ ∀ i, column ≠ linkName i) (scope : Scope) :
    (q.rowOf scope).named (n.label column) = .ok (scope.cell n.tableAlias column) := by
  rw [Select.rowOf, Select.tupleOf, ← List.append_nil q.projections]
  exact Projection.named_row hshape (h.selected n hn hsource column hcolumn)
    (h.only n hn hsource column hcolumn hname) []

end Plan

namespace Draft

/-- The statements of a draft select the labels of its nodes, and nothing without a label. -/
theorem Projecting.labelsOf_statement (h : d.Projecting s root) (hdeclared : s.Declared)
    (hq : (d.plan s root).statement? source = some (q, link)) : (d.plan s root).LabelsOf source q ∧
      ∀ x ∈ q.projections, ∃ c label, x = .column c (some label) := by
  cases source with
  | primary =>
    cases hq
    have hlabels := h.labelsOf_selectFor hdeclared [] [] none none
    rw [Plan.selectFor_direct (.inr ⟨rfl, rfl⟩)] at hlabels
    refine ⟨⟨hlabels.selected, hlabels.only⟩, fun x hx => ?_⟩
    obtain ⟨a, c, -, rfl⟩ := h.labels x hx
    exact ⟨_, _, rfl⟩
  | batch i =>
    obtain ⟨b, hb, heq⟩ := Option.map_eq_some_iff.mp hq
    cases heq
    have hlabels := h.labelsOf_forParents hdeclared hb []
    refine ⟨⟨hlabels.selected, hlabels.only⟩, fun x hx => ?_⟩
    obtain ⟨linkAlias, hlink⟩ := h.link i b hb
    obtain ⟨columns, hcolumns, hprojections⟩ := hlink.projections
    rw [hprojections, List.mem_append] at hx
    rcases hx with hx | hx
    · obtain ⟨j, c, -, rfl⟩ := Projection.mem_ofLink.mp hx
      exact ⟨_, _, rfl⟩
    · obtain ⟨a, c, -, rfl⟩ := hcolumns x hx
      exact ⟨_, _, rfl⟩

variable (h : s.Compiling r root hops d) (hfit : ∀ id : s.RelationId, JoinsFit (s.relation id).join
  (s.relation id).junction (s.entity (s.relation id).source) (s.target id)) (hapart : s.LinksApart)

include h hfit hapart

/-- Keys along a relation, read from a row of a statement, are those of a row of the relation's source. -/
theorem exists_row_of_completeKey (hdeclared : s.Declared) (hn : n ∈ d.nodes)
    (hloads : s.Loads n (s.relation id).source)
    (hq : (d.plan s root).statement? n.source = some (q, link)) (hscope : scope ∈ q.scopes db)
    {key : List Value} (hkey : completeKey (n.values (q.rowOf scope)) (s.relation id).join.left = some key) :
    ∃ origin ∈ db.rows (s.entity (s.relation id).source).table,
      (∀ column ∈ (s.relation id).join.left, origin.cell column ≠ .null) ∧
        (s.relation id).join.left.map origin.cell = key := by
  obtain ⟨hlabels, hshape⟩ := h.projecting.labelsOf_statement hdeclared hq
  have hleft : (s.relation id).join.left ⊆ n.columns := hloads.columns ▸ (hfit id).left
  have hcells : ∀ column ∈ (s.relation id).join.left,
      (n.values (q.rowOf scope)).get? column = some (scope.cell n.tableAlias column) := by
    intro column hcolumn
    have hnamed := hlabels.named_rowOf hshape hn rfl (List.mem_cons_of_mem _ (hleft hcolumn))
      (.inr (hapart id column hcolumn)) scope
    rw [← Row.cell_of_named hnamed]
    exact KeyMap.get?_ofList_map (hleft hcolumn)
  obtain ⟨hnull, rfl⟩ := (completeKey_eq_some hcells).mp hkey
  rcases (h.drawing db).node n hn q link hq _ hloads scope hscope with hnone | ⟨origin, horigin, hdrawn⟩
  · obtain ⟨pair, hpair⟩ := List.exists_mem_of_ne_nil _ (hfit id).join_ne_nil
    exact absurd (hnone pair.1) (hnull pair.1 (List.mem_map_of_mem hpair))
  · have hsame : ∀ column ∈ (s.relation id).join.left,
        scope.cell n.tableAlias column = origin.cell column :=
      fun column hcolumn => hdrawn column (hleft hcolumn)
    refine ⟨origin, horigin, fun column hcolumn => hsame column hcolumn ▸ hnull column hcolumn, ?_⟩
    exact List.map_congr_left fun column hcolumn => (hsame column hcolumn).symm

/-- The keys of the parents of a batch are those of rows of the table from which its relation leads. -/
theorem keysFrom_parents (hdeclared : s.Declared) (ht : t ∈ d.tree.subtrees) (hids : d.tree.ids.Nodup)
    (hloads : s.Loads t.info (s.relation id).source)
    (hparent : (d.plan s root).parentOf b = some t.info.id)
    (hprimary : ∀ row ∈ primary, (d.plan s root).Made db .primary row)
    (hanswers : ∀ i, ∀ row ∈ answers i, (d.plan s root).Made db (.batch i) row) :
    s.KeysFrom db id ((d.plan s root).Parents primary answers b) := by
  intro values key ⟨parent, hparent', hrecord⟩ hkey
  obtain rfl := Option.some.inj (hparent'.symm.trans hparent)
  have hroot : (d.plan s root).tree.info.source = .primary :=
    (congrArg Node.source d.info_tree).trans h.sourced.root
  obtain ⟨u, hu, hid, row, hmade, -, rfl⟩ :=
    Plan.exists_row_of_mem_recordsOf hanswers (hroot ▸ hprimary) hrecord
  obtain rfl := LoadTree.eq_of_id_eq hids hu ht hid
  have hmem : u.info ∈ d.nodes := h.treeMatches.nodes.mem_iff.mp (LoadTree.info_mem_nodes ht)
  obtain ⟨⟨q, link⟩, hq⟩ := Option.isSome_iff_exists.mp (h.sourced.isSome_statement? hmem)
  obtain ⟨scope, hscope, rfl⟩ := hmade q link hq
  exact exists_row_of_completeKey h hfit hapart hdeclared hmem hloads hq hscope hkey

omit hfit hapart in
/-- A batch names the node that opened it exactly if it names a node that opened one. -/
theorem namesOpener_iff (hstaged : (d.plan s root).Staged) (hb : d.batches[i]? = some b) :
    (d.plan s root).NamesOpener i b ↔ (d.plan s root).puts b = true := by
  have hsourced := h.sourced
  constructor
  · rintro ⟨m, hm, u, hu, hid, -, hopened⟩
    obtain ⟨-, hmem, -⟩ := h.treeMatches.child hm hu
    refine List.any_eq_true.mpr ⟨u.info, hmem, ?_⟩
    simp [hid, hsourced.strategy_of_source_ne h.treeMatches hm hu hopened]
  · intro hputs
    obtain ⟨n, hn, hnamed⟩ := List.any_eq_true.mp hputs
    obtain ⟨hid, hstrategy⟩ := by simpa using hnamed
    obtain ⟨m, hm, u, hu, huid, hsource, -⟩ := hstaged.batch hb
    obtain ⟨-, hmem, hmmem, hparent⟩ := h.treeMatches.child hm hu
    obtain rfl : n = u.info := h.rooted.eq_of_id_eq (List.mem_cons_of_mem _ hn)
      (List.mem_cons_of_mem _ hmem) (hid.trans huid.symm)
    obtain ⟨j, hj, hle⟩ := hsourced.opened _ hmem _ hmmem hparent hstrategy
    refine ⟨m, hm, u, hu, huid, hsource, fun heq => ?_⟩
    rw [← heq, hj] at hle
    exact absurd hle (Nat.not_succ_le_self j)

section Run

variable {transcript : Transcript} (hstaged : (d.plan s root).Staged)
  (hanswered : (d.plan s root).Answered primary answers d.batches.zipIdx transcript)
  (hreply : ∀ e ∈ transcript, e.2 = e.1.rows db)

omit h hfit hapart in
include hanswered hreply in
/-- What comes back for the batches in a run is made of their scopes. -/
theorem made_answers (hrow : row ∈ answers i) : (d.plan s root).Made db (.batch i) row := by
  intro q link hq
  obtain ⟨b, hb, -⟩ := Option.map_eq_some_iff.mp hq
  have hmem : (b, i) ∈ d.batches.zipIdx := List.mem_zipIdx_iff_getElem?.mpr hb
  rcases hanswered.of_mem (·.rows db) hreply hmem with ⟨hnone, -⟩ | ⟨keys, -, hanswer⟩
  · rw [hnone] at hrow
    exact absurd hrow List.not_mem_nil
  · rw [hanswer] at hrow
    exact Plan.made_of_mem_forParents hb hrow q link hq

variable (hkeyed : s.Keyed db) (hprimary : ∀ row ∈ primary, (d.plan s root).Made db .primary row)

include hstaged hanswered hreply hkeyed hprimary

/-- A batch that names the node which opened it has for each record the rows that come back for all. -/
theorem linked_answers_eq (ht : t ∈ d.tree.subtrees) (hc : c ∈ t.children)
    (hsource : c.info.source ≠ t.info.source) (hi : c.info.source = .batch i)
    (hb : d.batches[i]? = some b) (hparent : (d.plan s root).parentOf b = some t.info.id)
    (hvalues : (d.plan s root).Parents primary answers b values) :
    b.linked values (answers i) = b.linked values (b.forAll.rows db) := by
  have hmem : (b, i) ∈ d.batches.zipIdx := List.mem_zipIdx_iff_getElem?.mpr hb
  rcases hanswered.of_mem (·.rows db) hreply hmem with ⟨-, hincomplete⟩ | ⟨keys, hasks, hanswer⟩
  · have hnone := hincomplete values hvalues
    rw [Batch.linked_of_none hnone, Batch.linked_of_none hnone]
  · -- The node that opened the batch is the child, so its link is compared along the child's relation.
    obtain ⟨n, hn, hstrategy, hnsource, id', hrelation, linkAlias, hlinks⟩ := (h.drawing db).link i b hb
    obtain ⟨-, hcmem, -⟩ := h.treeMatches.child ht hc
    have hbatched := h.sourced.strategy_of_source_ne h.treeMatches ht hc hsource
    obtain rfl := h.sourced.owner _ hcmem n hn hbatched hstrategy (hi.trans hnsource.symm)
    obtain ⟨id, hrelation', hloads, -⟩ := h.rooted.child h.treeMatches h.opening.loads ht hc
    obtain rfl : id' = id := Fin.ext (Option.some.inj (hrelation.symm.trans hrelation'))
    have hkeys := keysFrom_parents h hfit hapart hkeyed.declared ht hstaged.ids hloads hparent hprimary
      fun i row hrow => made_answers hanswered hreply hrow
    obtain ⟨tableAlias, hselects⟩ := h.projecting.link i b hb
    rw [hanswer]
    exact hlinks.linked_forParents hasks hkeys hselects hkeyed hvalues

/-- For the records of a run the rows of its batches are those that come back for all parents. -/
theorem alike_allAnswers
    (hnames : ∀ b i, (b, i) ∈ d.batches.zipIdx → (d.plan s root).NamesOpener i b ∨ answers i = []) :
    (d.plan s root).Alike answers ((d.plan s root).allAnswers db) d.tree primary := by
  intro t ht c hc hsource i b hi hb values hvalues
  have hall : (d.plan s root).allAnswers db i =
      if (d.plan s root).puts b then b.forAll.rows db else [] := by
    simp only [Plan.allAnswers, hb]
  have hputs := namesOpener_iff h hstaged hb
  by_cases hopener : (d.plan s root).NamesOpener i b
  · rw [hall, if_pos (hputs.mp hopener)]
    obtain ⟨m, hm, u, hu, hid, husource, hopened⟩ := hopener
    obtain rfl := hstaged.owner t ht c hc m hm u hu hsource hopened (hi.trans husource.symm)
    have hcsub := LoadTree.subtrees_trans ht (LoadTree.mem_subtrees_of_mem_children hc)
    have hparent : (d.plan s root).parentOf b = some t.info.id := by
      rw [Plan.parentOf, ← hid, hstaged.found c hcsub]
      exact hstaged.parent t ht c hc
    exact linked_answers_eq h hfit hapart hstaged hanswered hreply hkeyed hprimary ht hc hsource hi hb hparent
      ⟨_, hparent, hvalues⟩
  · have hmem : (b, i) ∈ d.batches.zipIdx := List.mem_zipIdx_iff_getElem?.mpr hb
    rw [hall, if_neg (mt hputs.mpr hopener), (hnames b i hmem).resolve_left hopener]

end Run

end Draft

end EagerLoad
