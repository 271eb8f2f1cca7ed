import EagerLoad.Proofs.Hydration.Success
import EagerLoad.Proofs.Loading.Standing

/-!
# Nesting rows that stand for table rows

Rows that a statement makes of scopes are grouped as the scopes are. If the scopes stand for table rows,
and if what comes back for each batch stands for the rows to which a record's row leads, then the nested
grouping of the rows consists of the records of the table rows.
-/

namespace EagerLoad

namespace Node

variable {n : Node} {f : Scope → Row} {scope : Scope} {scopes : List Scope} {row : Tuple} {key : String}

/-- The rows that are made of some scopes have the columns of a node under its labels. -/
def ReadOff (n : Node) (f : Scope → Row) (scopes : List Scope) : Prop :=
  ∀ scope ∈ scopes, ∀ column ∈ n.primaryKey :: n.columns,
    (f scope).named (n.label column) = .ok (scope.cell n.tableAlias column)

namespace ReadOff

variable (h : n.ReadOff f scopes)

include h

theorem mono {part : List Scope} (hpart : part ⊆ scopes) : n.ReadOff f part :=
  fun scope hscope => h scope (hpart hscope)

theorem has (hscope : scope ∈ scopes) : (f scope).Has n :=
  fun column hcolumn => ⟨_, h scope hscope column hcolumn⟩

/-- The key of a row is that of its scope. -/
theorem key?_eq (hscope : scope ∈ scopes) : n.key? (f scope) = n.scopeKey? scope := by
  have hcell := Row.cell_of_named (h scope hscope n.primaryKey List.mem_cons_self)
  rw [key?, scopeKey?, hcell]

theorem keys_map : n.keys (scopes.map f) = n.scopeKeys scopes := by
  rw [keys, scopeKeys, List.filterMap_map]
  exact congrArg List.eraseDups (List.filterMap_congr fun scope hscope => h.key?_eq hscope)

theorem rowsOf_map : n.rowsOf key (scopes.map f) = (n.scopesOf key scopes).map f := by
  rw [rowsOf, scopesOf, List.filter_map]
  refine congrArg (List.map f) (List.filter_congr fun scope hscope => ?_)
  rw [Function.comp_apply, h.key?_eq hscope]

/-- The columns of a row are those of the table row that its scope shows. -/
theorem values_eq (hscope : scope ∈ scopes) (hshows : n.Shows scope row) :
    n.values (f scope) = n.columnsOf row := by
  rw [values, columnsOf]
  refine congrArg KeyMap.ofList (List.map_congr_left fun column hcolumn => ?_)
  rw [Row.cell_of_named (h scope hscope column (List.mem_cons_of_mem _ hcolumn)), hshows column hcolumn]

/-- The first of some rows has the columns of the table row that all of them show. -/
theorem firstValues_eq (hne : scopes ≠ []) (hshows : ∀ scope ∈ scopes, n.Shows scope row) :
    n.firstValues (scopes.map f) = n.columnsOf row := by
  cases scopes with
  | nil => exact absurd rfl hne
  | cons scope rest => exact h.values_eq List.mem_cons_self (hshows scope List.mem_cons_self)

end ReadOff

end Node

variable {p : Plan} {answers : Nat → List Row} {t : LoadTree} {primary rows : List Row} {id : Nat}
  {values : KeyMap Value} {targets : Node → Tuple → List Tuple} {table : Node → List Tuple}

/-- Every record is made of a row of its statement that has a key for its node. -/
theorem Plan.exists_row_of_mem_recordsOf {good : RowSource → Row → Prop}
    (hanswers : ∀ i, ∀ row ∈ answers i, good (.batch i) row)
    (hrows : ∀ row ∈ rows, good t.info.source row) (h : values ∈ p.recordsOf answers id t rows) :
    ∃ u ∈ t.subtrees, u.info.id = id ∧ ∃ row, good u.info.source row ∧ u.info.key? row ≠ none ∧
      values = u.info.values row := by
  induction t using LoadTree.induction generalizing rows with
  | node n children ih =>
    obtain ⟨key, hkey, ⟨rfl, rfl⟩ | ⟨c, hc, hbelow⟩⟩ := Plan.mem_recordsOf.mp h
    · have hne : n.rowsOf key rows ≠ [] := fun hnil => Node.rowsOf_eq_nil.mp hnil hkey
      obtain ⟨first, rest, hown⟩ := List.exists_cons_of_ne_nil hne
      have hfirst : first ∈ n.rowsOf key rows := hown ▸ List.mem_cons_self
      obtain ⟨hmem, hfirstKey⟩ := List.mem_filter.mp hfirst
      refine ⟨_, LoadTree.mem_subtrees_self _, rfl, first, hrows first hmem, ?_, by rw [hown]; rfl⟩
      simp only [LoadTree.info_node, of_decide_eq_true hfirstKey]
      exact Option.some_ne_none key
    · have hgood : ∀ row ∈ p.rowsBelow answers n (n.rowsOf key rows) c.info,
          good c.info.source row := by
        intro row hrow
        by_cases hsource : c.info.source = n.source
        · rw [Plan.rowsBelow_of_eq hsource] at hrow
          exact hsource ▸ hrows row (List.mem_filter.mp hrow).1
        · rw [Plan.rowsBelow, if_neg hsource] at hrow
          split at hrow
          · exact absurd hrow List.not_mem_nil
          · rename_i i hi
            rw [hi]
            split at hrow
            · unfold Batch.linked at hrow
              split at hrow
              · exact hanswers i row (List.mem_filter.mp hrow).1
              · exact absurd hrow List.not_mem_nil
            · exact absurd hrow List.not_mem_nil
      obtain ⟨u, hu, hrecord⟩ := ih c hc hgood hbelow
      exact ⟨u, LoadTree.mem_subtrees_node.mpr (.inr ⟨c, hc, hu⟩), hrecord⟩

/-- The rows for a child below a record of a row stand for the rows to which that leads. -/
def Plan.DeliversBelow (p : Plan) (answers : Nat → List Row) (targets : Node → Tuple → List Tuple)
    (n : Node) (c : LoadTree) (row : Tuple) : Prop :=
  ∃ (f : Scope → Row) (scopes : List Scope),
    (∀ u ∈ c.subtrees, u.info.source = c.info.source → u.info.ReadOff f scopes) ∧
    Stands targets c scopes (targets c.info row) ∧
    ∀ own, n.firstValues own = n.columnsOf row → p.rowsBelow answers n own c.info = scopes.map f

/-- What comes back for the batches below the records of a plan stands for the rows to which their rows
lead. -/
def Plan.Delivers (p : Plan) (answers : Nat → List Row) (primary : List Row)
    (table : Node → List Tuple) (targets : Node → Tuple → List Tuple) : Prop :=
  ∀ m ∈ p.tree.subtrees, ∀ c ∈ m.children, c.info.source ≠ m.info.source → ∀ row ∈ table m.info,
    m.info.columnsOf row ∈ p.recordsOf answers m.info.id p.tree primary →
    p.DeliversBelow answers targets m.info c row

/-- Rows that stand for table rows are nested into the records of these. -/
theorem Plan.Delivers.nest_eq (h : p.Delivers answers primary table targets)
    (htable : ∀ t ∈ p.tree.subtrees, ∀ c ∈ t.children, ∀ row, targets c.info row ⊆ table c.info)
    (ht : t ∈ p.tree.subtrees) {f : Scope → Row} {scopes : List Scope} {rows : List Tuple}
    (hread : ∀ u ∈ t.subtrees, u.info.source = t.info.source → u.info.ReadOff f scopes)
    (hstands : Stands targets t scopes rows) (hrows : rows ⊆ table t.info)
    (hvisited : ∀ id, p.recordsOf answers id t (scopes.map f) ⊆ p.recordsOf answers id p.tree primary) :
    p.nest answers t (scopes.map f) = rows.map (t.record targets) := by
  induction t using LoadTree.induction generalizing f scopes rows with
  | node n children ih =>
    have hn : n.ReadOff f scopes := hread _ (LoadTree.mem_subtrees_self _) rfl
    cases hstands with
    | node hkeys hshows hbelow =>
      rw [Plan.nest_node, hn.keys_map, hkeys, List.map_map]
      apply List.map_congr_left
      intro row hrow
      have hkey : n.rowKey row ∈ n.keys (scopes.map f) := by
        rw [hn.keys_map, hkeys]
        exact List.mem_map_of_mem hrow
      have hown : n.rowsOf (n.rowKey row) (scopes.map f) =
          (n.scopesOf (n.rowKey row) scopes).map f := hn.rowsOf_map
      have hvalues : n.firstValues (n.rowsOf (n.rowKey row) (scopes.map f)) = n.columnsOf row := by
        rw [hown]
        exact (hn.mono (List.filter_subset_self _)).firstValues_eq (Stands.scopesOf_ne_nil hkeys hrow)
          (hshows row hrow)
      have hrecord : n.columnsOf row ∈ p.recordsOf answers n.id p.tree primary :=
        hvisited n.id (Plan.mem_recordsOf.mpr ⟨_, hkey, .inl ⟨rfl, hvalues.symm⟩⟩)
      have hchild : ∀ c ∈ children,
          p.nest answers c (p.rowsBelow answers n (n.rowsOf (n.rowKey row) (scopes.map f)) c.info) =
            (targets c.info row).map (c.record targets) := by
        intro c hc
        have hcsub := LoadTree.mem_subtrees_of_mem_children (t := .node n children) hc
        have hcvisited : ∀ id, p.recordsOf answers id c
            (p.rowsBelow answers n (n.rowsOf (n.rowKey row) (scopes.map f)) c.info) ⊆
              p.recordsOf answers id p.tree primary := fun id values hmem =>
          hvisited id (Plan.mem_recordsOf.mpr ⟨_, hkey, .inr ⟨c, hc, hmem⟩⟩)
        have hctable := htable _ ht c hc row
        by_cases hsource : c.info.source = n.source
        · rw [Plan.rowsBelow_of_eq hsource, hown] at hcvisited ⊢
          refine ih c hc (LoadTree.subtrees_trans ht hcsub) (fun u hu husource => ?_)
            (hbelow c hc hsource row hrow) hctable hcvisited
          exact (hread u (LoadTree.subtrees_trans hcsub hu) (husource.trans hsource)).mono
            (List.filter_subset_self _)
        · obtain ⟨g, scopes', hgread, hgstands, hgrows⟩ := h _ ht c hc hsource row (hrows hrow) hrecord
          have hbatch := hgrows _ hvalues
          rw [LoadTree.info_node] at hbatch
          rw [hbatch] at hcvisited ⊢
          exact ih c hc (LoadTree.subtrees_trans ht hcsub) hgread hgstands hctable hcvisited
      simp only [Function.comp_apply, LoadTree.record, hvalues]
      rw [Plan.nestBelow_eq_map, LoadTree.recordEntries_eq_map]
      refine congrArg Json.object (congrArg _ (List.map_congr_left fun c hc => ?_))
      rw [hchild c hc]

end EagerLoad
