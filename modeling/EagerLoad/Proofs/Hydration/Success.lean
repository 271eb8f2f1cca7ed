import EagerLoad.Proofs.Hydration.Loading

/-!
# Rows that can be folded

Folding a row fails only where a label is missing. If the rows of every statement have the labels of the
nodes that are read from it, and those of a batch the labels of its link, then there is a run of the plan.
-/

namespace EagerLoad

open Arena

variable {p : Plan} {a : Arena} {n : Node} {t : LoadTree} {row : Row} {rows : List Row}
  {source : RowSource} {parent : Option Nat} {i : Nat} {b : Batch}

/-- A row has the labels of a node. -/
def Row.Has (row : Row) (n : Node) : Prop :=
  ∀ column ∈ n.primaryKey :: n.columns, ∃ v, row.named (n.label column) = .ok v

/-- The columns of a node are read from a row that has its labels. -/
theorem Node.exists_readColumns (h : row.Has n) : ∃ values, n.readColumns row = .ok values := by
  have hfold : ∀ (columns : List String) (start : KeyMap Value),
      (∀ column ∈ columns, ∃ v, row.named (n.label column) = .ok v) →
      ∃ values, columns.foldlM (fun values column => do
        return values.insert column (← row.named (n.label column))) start = Except.ok values := by
    intro columns
    induction columns with
    | nil => exact fun start _ => ⟨start, rfl⟩
    | cons column rest ih =>
      intro start hcolumns
      obtain ⟨v, hv⟩ := hcolumns column List.mem_cons_self
      rw [List.foldlM_cons, hv]
      exact ih _ fun c hc => hcolumns c (List.mem_cons_of_mem _ hc)
  exact hfold n.columns .empty fun column hcolumn => h column (List.mem_cons_of_mem _ hcolumn)

/-- A row that has the labels of a node is absorbed there. -/
theorem Node.exists_absorb (h : row.Has n) (parent : Option Nat) (a : Arena) :
    ∃ found a', n.absorb row parent a = (.ok found, a') := by
  obtain ⟨key, hkey⟩ := h n.primaryKey List.mem_cons_self
  obtain ⟨values, hvalues⟩ := Node.exists_readColumns h
  simp only [Node.absorb, hkey, hvalues]
  split
  · exact ⟨_, _, rfl⟩
  · split <;> exact ⟨_, _, rfl⟩

/-- A row that has the labels of the nodes of a statement is folded into them. -/
theorem LoadTree.exists_absorb (hsource : t.info.source = source)
    (h : ∀ u ∈ t.subtrees, u.info.source = source → row.Has u.info) (parent : Option Nat) (a : Arena) :
    ∃ a', t.absorb row source parent a = (.ok (), a') := by
  induction t using LoadTree.induction generalizing parent a with
  | node n children ih =>
    have hbelow : ∀ part ⊆ children, ∀ (q : Nat) (a : Arena),
        ∃ a', absorbBelow row source q part a = (.ok (), a') := by
      intro part
      induction part with
      | nil => exact fun _ _ a => ⟨a, rfl⟩
      | cons c rest ihrest =>
        intro hpart q a
        obtain ⟨hc, hrest⟩ := List.cons_subset.mp hpart
        unfold absorbBelow
        split
        · rename_i hcsource
          have hlabels : ∀ u ∈ c.subtrees, u.info.source = source → row.Has u.info :=
            fun u hu => h u (mem_subtrees_node.mpr (.inr ⟨c, hc, hu⟩))
          obtain ⟨a₁, h₁⟩ := ih c hc hcsource hlabels (some q) a
          simp only [h₁]
          exact ihrest hrest q a₁
        · exact ihrest hrest q a
    obtain ⟨found, a₁, h₁⟩ := Node.exists_absorb (h _ (mem_subtrees_self _) hsource) parent a
    unfold absorb
    rw [info_node] at h₁
    cases found with
    | none => exact ⟨a₁, by simp only [h₁]⟩
    | some q =>
      simp only [h₁]
      exact hbelow children (List.Subset.refl _) q a₁

/-- A row is folded under several parents as under one. -/
theorem LoadTree.exists_absorbUnder (hsource : t.info.source = source)
    (h : ∀ u ∈ t.subtrees, u.info.source = source → row.Has u.info) (parents : List Nat) (a : Arena) :
    ∃ a', t.absorbUnder row source parents a = (.ok (), a') := by
  induction parents generalizing a with
  | nil => exact ⟨a, rfl⟩
  | cons parent rest ih =>
    obtain ⟨a₁, h₁⟩ := LoadTree.exists_absorb hsource h (some parent) a
    simp only [LoadTree.absorbUnder, h₁]
    exact ih a₁

/-- Rows that have the labels of the nodes of a source. -/
def Plan.Covers (p : Plan) (source : RowSource) (rows : List Row) : Prop :=
  ∀ row ∈ rows, ∀ u ∈ p.tree.subtrees, u.info.source = source → row.Has u.info

/-- Rows with the labels of the primary statement are folded. -/
theorem Plan.Staged.exists_absorbPrimaries (hp : p.Staged) (h : p.Covers .primary rows) (a : Arena) :
    ∃ a', p.absorbPrimaries rows a = (.ok (), a') := by
  induction rows generalizing a with
  | nil => exact ⟨a, rfl⟩
  | cons row rest ih =>
    obtain ⟨a₁, h₁⟩ := LoadTree.exists_absorb hp.root.1 (h row List.mem_cons_self) none a
    simp only [Plan.absorbPrimaries, Plan.absorbPrimary, h₁]
    exact ih (fun row hrow => h row (List.mem_cons_of_mem _ hrow)) a₁

/-- Rows with the labels of a batch and of its link are folded. -/
theorem Plan.Staged.exists_absorbBatch (hp : p.Staged) (hb : p.batches[i]? = some b)
    (hlink : ∀ row ∈ rows, ∃ link, b.linkLabels.mapM row.named = .ok link)
    (h : p.Covers (.batch i) rows) (pending : PendingBatch) (a : Arena) :
    ∃ a', p.absorbBatch i b pending rows a = (.ok (), a') := by
  obtain ⟨u, hu, hid, hsource⟩ := hp.named i b hb
  have hfind : p.tree.find? b.node = some u := hid ▸ LoadTree.find?_id hp.ids hu
  induction rows generalizing a with
  | nil => exact ⟨a, rfl⟩
  | cons row rest ih =>
    obtain ⟨link, hrow⟩ := hlink row List.mem_cons_self
    have hlabels : ∀ v ∈ u.subtrees, v.info.source = .batch i → row.Has v.info :=
      fun v hv => h row List.mem_cons_self v (LoadTree.subtrees_trans hu hv)
    obtain ⟨a₁, h₁⟩ := LoadTree.exists_absorbUnder hsource hlabels
      (pending.parentsOf (link.map Value.identity)) a
    simp only [Plan.absorbBatch, Plan.absorbBatchRow, hrow, hfind, h₁]
    exact ih (fun row hrow => hlink row (List.mem_cons_of_mem _ hrow))
      (fun row hrow => h row (List.mem_cons_of_mem _ hrow)) a₁

/-- There is a run of the batches from some stage on, if the replies have the labels of those batches that
name the node which opened them. -/
theorem Plan.Stage.exists_runs (hp : p.Staged) (reply : Sql.Select → List Row)
    (hlink : ∀ i b, p.batches[i]? = some b → p.NamesOpener i b → ∀ keys,
      ∀ row ∈ reply (b.forParents keys), ∃ link, b.linkLabels.mapM row.named = .ok link)
    (hcovers : ∀ i b, p.batches[i]? = some b → p.NamesOpener i b → ∀ keys,
      p.Covers (.batch i) (reply (b.forParents keys)))
    {primary : List Row} {batches : List (Batch × Nat)} {next : Nat} {answers : Nat → List Row}
    (hbatches : batches = p.batches.zipIdx.drop next) (hstage : p.Stage primary next answers a) :
    ∃ transcript a', p.Runs batches a transcript a' ∧ ∀ e ∈ transcript, e.2 = reply e.1 := by
  induction batches generalizing next answers a with
  | nil => exact ⟨[], a, .done, fun _ h => absurd h List.not_mem_nil⟩
  | cons entry rest ih =>
    obtain ⟨b, i⟩ := entry
    obtain ⟨hlt, rfl, hb, hrest⟩ := of_cons_eq_drop_zipIdx hbatches
    cases hprepare : p.prepareBatch b a with
    | none =>
      have hstage' : p.Stage primary (i + 1) answers a :=
        ⟨hstage.grouped, hstage.nodes, fun j hj => hstage.waiting j (by omega)⟩
      obtain ⟨transcript, a', hruns, hreply⟩ := ih hrest hstage'
      exact ⟨transcript, a', .passed hprepare hruns, hreply⟩
    | some pending =>
      obtain ⟨m, hm, u, hu, hid, hsource, hopened, hparentOf⟩ := hstage.opened hp hb hprepare
      obtain ⟨-, keys, hstatement, -⟩ := Plan.prepareBatch_eq_some hparentOf hprepare
      have hnames : p.NamesOpener i b := ⟨m, hm, u, hu, hid, hsource, hopened⟩
      obtain ⟨a₁, hfold⟩ := hp.exists_absorbBatch hb (hlink i b hb hnames keys)
        (hcovers i b hb hnames keys) pending a
      obtain ⟨hstage', -⟩ := hstage.put hp hb hprepare hfold
      obtain ⟨transcript, a', hruns, hreply⟩ := ih hrest hstage'
      refine ⟨_, a', .put hprepare hfold hruns, fun e he => ?_⟩
      rcases List.mem_cons.mp he with rfl | he
      · rw [hstatement]
      · exact hreply e he

/-- A plan is loaded from prepared rows if these have the labels that are looked up: of the rows that come
back for the statement and for the batches it makes their nested grouping. -/
theorem Plan.Staged.exists_play (hp : p.Staged) (reply : Sql.Select → List Row) (statement : Sql.Select)
    (hprimary : p.Covers .primary (reply statement))
    (hlink : ∀ i b, p.batches[i]? = some b → p.NamesOpener i b → ∀ keys,
      ∀ row ∈ reply (b.forParents keys), ∃ link, b.linkLabels.mapM row.named = .ok link)
    (hcovers : ∀ i b, p.batches[i]? = some b → p.NamesOpener i b → ∀ keys,
      p.Covers (.batch i) (reply (b.forParents keys))) :
    ∃ (transcript : Transcript) (answers : Nat → List Row), (∀ e ∈ transcript, e.2 = reply e.1) ∧
      p.Answered (reply statement) answers p.batches.zipIdx transcript ∧
      (∀ b i, (b, i) ∈ p.batches.zipIdx → p.NamesOpener i b ∨ answers i = []) ∧
      (p.load statement).run.play ((statement :: transcript.map (·.1)).map fun q => .rows (reply q)) =
        ⟨.ok (p.nest answers p.tree (reply statement)),
          (statement :: transcript.map (·.1)).map fun q => (.fetchAll, q.render), []⟩ := by
  obtain ⟨a, hfold⟩ := hp.exists_absorbPrimaries hprimary .empty
  obtain ⟨transcript, a', hruns, hreply⟩ :=
    (hp.stage_zero hfold).exists_runs hp reply hlink hcovers List.drop_zero.symm
  obtain ⟨answers, hanswered, hnames, hnest⟩ := hp.finish_eq_nest hfold hruns
  have hresponses : (transcript.map (·.1)).map (fun q => Response.rows (reply q)) =
      transcript.replies.map .rows := by
    rw [Transcript.replies, List.map_map, List.map_map]
    exact List.map_congr_left fun e he => congrArg Response.rows (hreply e he).symm
  refine ⟨transcript, answers, hreply, hanswered, hnames, Plan.play_load.mpr
    ⟨_, transcript, a, a', hfold, hruns, hnest.symm, ?_, ?_, ?_⟩⟩
  · rw [List.map_cons, hresponses]
    exact replies_map_rows (_ :: transcript.replies)
  · simp [Transcript.calls]
  · simp

end EagerLoad
