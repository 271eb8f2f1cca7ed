import EagerLoad.Proofs.Hydration.Forest

/-!
# Records are made of rows

Each record of a hydrator was made of one row that it was given from the statement of the record's node:
the record has the identity of the row's key, and the values of the row's columns. This holds whatever the
calls, also after some have failed.
-/

namespace EagerLoad

variable {p : Plan} {a a' a'' : Arena} {t : LoadTree} {n : Node} {row : Row} {rows : List Row}
  {source : RowSource} {parent : Option Nat}

/-- A record is what a node makes of a row. -/
structure Node.MakesOf (n : Node) (row : Row) (r : KeyedRecord) : Prop where
  node : r.node = n.id
  key : ∃ v, row.named (n.label n.primaryKey) = .ok v ∧ v.isNull = false ∧ r.key = v.identity
  values : n.readColumns row = .ok r.values

/-- What is read has a value for each column, which is the row's. -/
theorem Node.named_of_readColumns {map : KeyMap Value} (h : n.readColumns row = .ok map) :
    ∀ column ∈ n.columns, ∃ v, row.named (n.label column) = .ok v ∧ map.get? column = some v := by
  have hfold : ∀ (columns : List String) (start : KeyMap Value),
      columns.foldlM (fun values column => do
        return values.insert column (← row.named (n.label column))) start = .ok map →
      ∀ column ∈ columns, ∃ v, row.named (n.label column) = .ok v := by
    intro columns
    induction columns with
    | nil => simp
    | cons first rest ih =>
      intro start h
      rw [List.foldlM_cons] at h
      obtain ⟨next, hnext, h⟩ := bind_eq_ok.mp h
      obtain ⟨v, hv, -⟩ := bind_eq_ok.mp hnext
      exact List.forall_mem_cons.mpr ⟨⟨v, hv⟩, ih next h⟩
  intro column hcolumn
  obtain ⟨v, hv⟩ := hfold n.columns .empty h column hcolumn
  refine ⟨v, hv, ?_⟩
  rw [← Node.values_of_readColumns h, ← Row.cell_of_named hv]
  exact KeyMap.get?_ofList_map hcolumn

/-- Whatever becomes of it, absorbing a row at a node adds at most what the node makes of the row. -/
theorem Node.absorb_adds {result : Except Error (Option Nat)}
    (h : n.absorb row parent a = (result, a')) : a.Adds a' (n.MakesOf row) := by
  unfold Node.absorb at h
  split at h
  · cases h
    exact .refl ..
  · rename_i key hkey
    split at h
    · cases h
      exact .refl ..
    · rename_i hnull
      split at h
      · cases h
        exact .refl ..
      · split at h <;> cases h
        · exact .refl ..
        · rename_i values hvalues
          exact .push ⟨rfl, ⟨key, hkey, by simpa using hnull, rfl⟩, hvalues⟩

namespace LoadTree

variable {result : Except Error Unit}

/-- A record is what some node of a tree, read from a statement, makes of a row. -/
def Makes (t : LoadTree) (source : RowSource) (row : Row) (r : KeyedRecord) : Prop :=
  ∃ u ∈ t.subtrees, u.info.source = source ∧ u.info.MakesOf row r

theorem Makes.of_mem {u : LoadTree} {r : KeyedRecord} (hu : u ∈ t.subtrees) (h : u.Makes source row r) :
    t.Makes source row r := by
  obtain ⟨v, hv, hmakes⟩ := h
  exact ⟨v, subtrees_trans hu hv, hmakes⟩

/-- Absorbing a row adds what nodes of its statement make of it. -/
theorem absorb_adds (hsource : t.info.source = source)
    (h : t.absorb row source parent a = (result, a')) : a.Adds a' (t.Makes source row) := by
  induction t using induction generalizing parent a a' result with
  | node n children ih =>
    have hnode {found : Except Error (Option Nat)} {a₁ : Arena}
        (h₁ : n.absorb row parent a = (found, a₁)) : a.Adds a₁ ((node n children).Makes source row) :=
      (Node.absorb_adds h₁).mono fun r hr => ⟨_, mem_subtrees_self _, hsource, hr⟩
    have hbelow : ∀ part ⊆ children, ∀ {q : Nat} {a a' : Arena} {result : Except Error Unit},
        absorbBelow row source q part a = (result, a') →
        a.Adds a' ((node n children).Makes source row) := by
      intro part
      induction part with
      | nil =>
        intro _ q a a' result h
        cases h
        exact .refl ..
      | cons c rest ihrest =>
        intro hpart q a a' result h
        obtain ⟨hc, hrest⟩ := List.cons_subset.mp hpart
        have hsub : c ∈ (node n children).subtrees :=
          mem_subtrees_of_mem_children (t := .node n children) hc
        unfold absorbBelow at h
        split at h
        · rename_i hcsource
          split at h
          · rename_i h₁
            cases h
            exact (ih c hc hcsource h₁).mono fun r hr => hr.of_mem hsub
          · rename_i h₁
            exact ((ih c hc hcsource h₁).mono fun r hr => hr.of_mem hsub).trans (ihrest hrest h)
        · exact ihrest hrest h
    unfold absorb at h
    split at h
    · rename_i h₁
      cases h
      exact hnode h₁
    · rename_i h₁
      cases h
      exact hnode h₁
    · rename_i h₁
      exact (hnode h₁).trans (hbelow children (List.Subset.refl _) h)

/-- Absorbing a row under several parents adds what nodes of its statement make of it. -/
theorem absorbUnder_adds (hsource : t.info.source = source) {parents : List Nat}
    (h : t.absorbUnder row source parents a = (result, a')) : a.Adds a' (t.Makes source row) := by
  induction parents generalizing a with
  | nil =>
    cases h
    exact .refl ..
  | cons parent rest ih =>
    unfold absorbUnder at h
    split at h
    · rename_i h₁
      cases h
      exact absorb_adds hsource h₁
    · rename_i h₁
      exact (absorb_adds hsource h₁).trans (ih h)

end LoadTree

/-- Absorbing rows of a batch adds what nodes of the batch make of one of them. -/
theorem Plan.absorbBatch_adds (hp : p.Staged) {i : Nat} {b : Batch} (hb : p.batches[i]? = some b)
    {pending : PendingBatch} {result : Except Error Unit}
    (h : p.absorbBatch i b pending rows a = (result, a')) :
    a.Adds a' fun r => ∃ row ∈ rows, p.tree.Makes (.batch i) row r := by
  have hrow {row : Row} {a a' : Arena} {result : Except Error Unit}
      (h : p.absorbBatchRow i b pending row a = (result, a')) :
      a.Adds a' (p.tree.Makes (.batch i) row) := by
    obtain ⟨t, ht, hid, hsource⟩ := hp.named i b hb
    unfold Plan.absorbBatchRow at h
    split at h
    · cases h
      exact .refl ..
    · rw [← hid, LoadTree.find?_id hp.ids ht] at h
      exact (LoadTree.absorbUnder_adds hsource h).mono fun r hr => hr.of_mem ht
  induction rows generalizing a with
  | nil =>
    cases h
    exact .refl ..
  | cons row rest ih =>
    unfold Plan.absorbBatch at h
    split at h
    · rename_i h₁
      cases h
      exact (hrow h₁).mono fun r hr => ⟨row, List.mem_cons_self, hr⟩
    · rename_i h₁
      refine ((hrow h₁).mono fun r hr => ⟨row, List.mem_cons_self, hr⟩).trans ((ih h).mono ?_)
      rintro r ⟨row', hrow', hr⟩
      exact ⟨row', List.mem_cons_of_mem _ hrow', hr⟩

/-- The hydrators that calls lead to from a new one, with the rows that these were given. -/
inductive Plan.Reads (p : Plan) : List (RowSource × Row) → Hydrator → Prop
  | start : Reads p [] ⟨.empty, []⟩
  | primary {reads : List (RowSource × Row)} {h : Hydrator} {row : Row} {result : Except Error Unit}
    {a : Arena} : Reads p reads h → p.absorbPrimary row h.arena = (result, a) →
    Reads p (reads ++ [(.primary, row)]) { h with arena := a }
  | prepare {reads : List (RowSource × Row)} {h : Hydrator} {i : Nat} {b : Batch} : Reads p reads h →
    p.batches[i]? = some b → Reads p reads { h with
      prepared := h.prepared ++ ((p.prepareBatch b h.arena).map fun pending => (i, pending)).toList }
  | batch {reads : List (RowSource × Row)} {h : Hydrator} {i : Nat} {b : Batch} {pending : PendingBatch}
    {rows : List Row} {result : Except Error Unit} {a : Arena} : Reads p reads h →
    p.batches[i]? = some b → (i, pending) ∈ h.prepared →
    p.absorbBatch i b pending rows h.arena = (result, a) →
    Reads p (reads ++ rows.map fun row => (.batch i, row)) { h with arena := a }

namespace Plan.Reads

variable {reads : List (RowSource × Row)} {h : Hydrator}

/-- These are all the hydrators that calls lead to. -/
theorem reaches_iff : p.Reaches h ↔ ∃ reads, p.Reads reads h := by
  constructor
  · intro hr
    induction hr with
    | refl => exact ⟨[], .start⟩
    | tail _ hstep ih =>
      obtain ⟨reads, hreads⟩ := ih
      cases hstep with
      | primary habsorb => exact ⟨_, .primary hreads habsorb⟩
      | prepare hb => exact ⟨_, .prepare hreads hb⟩
      | batch hb hprepared habsorb => exact ⟨_, .batch hreads hb hprepared habsorb⟩
  · rintro ⟨reads, hr⟩
    induction hr with
    | start => exact .refl ..
    | primary _ habsorb ih => exact ih.tail (.primary habsorb)
    | prepare _ hb ih => exact ih.tail (.prepare hb)
    | batch _ hb hprepared habsorb ih => exact ih.tail (.batch hb hprepared habsorb)

theorem inStep (hp : p.Staged) (hr : p.Reads reads h) : h.arena.InStep :=
  (Plan.Reaches.keeps hp (reaches_iff.mpr ⟨_, hr⟩)).forest.inStep

/-- Every record was made of a row that was given from the statement of its node. -/
theorem makes (hp : p.Staged) (hr : p.Reads reads h) :
    ∀ r ∈ h.arena.log, ∃ source row, (source, row) ∈ reads ∧ p.tree.Makes source row r := by
  induction hr with
  | start => simp [Arena.empty, Arena.log]
  | primary hbefore habsorb ih =>
    obtain ⟨new, hnew, hmade⟩ := (LoadTree.absorb_adds hp.root.1 habsorb).exists_log (hbefore.inStep hp)
    intro r hr
    rcases List.mem_append.mp (hnew ▸ hr) with hr | hr
    · obtain ⟨source, row, hmem, hmakes⟩ := ih r hr
      exact ⟨source, row, List.mem_append_left _ hmem, hmakes⟩
    · exact ⟨.primary, _, List.mem_append_right _ (List.mem_singleton_self _), hmade r hr⟩
  | prepare _ _ ih => exact ih
  | batch hbefore hb _ habsorb ih =>
    obtain ⟨new, hnew, hmade⟩ := (Plan.absorbBatch_adds hp hb habsorb).exists_log (hbefore.inStep hp)
    intro r hr
    rcases List.mem_append.mp (hnew ▸ hr) with hr | hr
    · obtain ⟨source, row, hmem, hmakes⟩ := ih r hr
      exact ⟨source, row, List.mem_append_left _ hmem, hmakes⟩
    · obtain ⟨row, hrow, hmakes⟩ := hmade r hr
      exact ⟨_, row, List.mem_append_right _ (List.mem_map_of_mem hrow), hmakes⟩

end Plan.Reads

end EagerLoad
