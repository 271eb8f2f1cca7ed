import EagerLoad.Proofs.Hydration.Grouping
import EagerLoad.Proofs.Hydration.Lists

/-!
# What folding a row adds to the records

The records of a node below a parent, and how the arena grows: a row only adds records at the end, all of
nodes that are read from the row's statement.
-/

namespace EagerLoad

namespace Arena

variable {a a' : Arena} {node q : Nat} {parent : Option Nat} {e : KeyedRecord}

/-- The records of a node below a parent with their positions, in order. -/
def entries (a : Arena) (node : Nat) (parent : Option Nat) : List (KeyedRecord × Nat) :=
  a.log.zipIdx.filter fun e => e.1.node = node && e.1.parent = parent

theorem mem_entries : (e, q) ∈ a.entries node parent ↔
    a.log[q]? = some e ∧ e.node = node ∧ e.parent = parent := by
  simp [entries, List.mk_mem_zipIdx_iff_getElem?]

/-- The children of a record are the records below it. -/
theorem InStep.childrenOf_eq_map (ha : a.InStep) (node q : Nat) :
    a.childrenOf node q = (a.entries node (some q)).map (·.2) :=
  ha.children node q

theorem InStep.entries_push (ha : a.InStep) (e : KeyedRecord) : (a.push e).entries node parent =
    a.entries node parent ++
      if e.node = node ∧ e.parent = parent then [(e, a.records.length)] else [] := by
  simp only [entries, ha.log_push, List.zipIdx_append, List.filter_append, Nat.zero_add, ha.length_log]
  by_cases h : e.node = node ∧ e.parent = parent
  · simp [h]
  · rw [if_neg h]
    rw [not_and_or] at h
    rcases h with h | h <;> simp [h]

/-- Records of a node of another kind are the same. -/
theorem Extends.entries_eq {kind : Nat → Prop} (h : a.Extends a' kind) (ha : a.InStep)
    (hkind : ¬ kind node) : a'.entries node parent = a.entries node parent := by
  obtain ⟨new, hnew, hnewkind⟩ := Adds.exists_log h ha
  have hnone : (new.zipIdx a.log.length).filter
      (fun e => e.1.node = node && e.1.parent = parent) = [] := by
    refine List.filter_eq_nil_iff.mpr fun e he heq => hkind ?_
    have hmem : e.1 ∈ new := List.fst_mem_of_mem_zipIdx he
    have hnode : e.1.node = node := by
      simp only [Bool.and_eq_true, decide_eq_true_eq] at heq
      exact heq.1
    exact hnode ▸ hnewkind e.1 hmem
  simp only [entries, hnew, List.zipIdx_append, List.filter_append, Nat.zero_add, hnone,
    List.append_nil]

end Arena

/-- A value found under a label is the one that the row has for it. -/
theorem Row.cell_of_named {row : Row} {label : String} {v : Value} (h : row.named label = .ok v) :
    row.cell label = v := by
  rw [Row.cell, h]

/-- The columns that are read are those that the row has. -/
theorem Node.values_of_readColumns {n : Node} {row : Row} {map : KeyMap Value}
    (h : n.readColumns row = .ok map) : n.values row = map := by
  have hfold : ∀ (columns : List String) (start : KeyMap Value),
      columns.foldlM (fun values column => do
        return values.insert column (← row.named (n.label column))) start = .ok map →
      (columns.map fun column => (column, row.cell (n.label column))).foldl
        (fun map entry => map.insert entry.1 entry.2) start = map := by
    intro columns
    induction columns with
    | nil =>
      intro start h
      exact Except.ok.inj h
    | cons column rest ih =>
      intro start h
      rw [List.foldlM_cons] at h
      cases hv : row.named (n.label column) with
      | error e =>
        rw [hv] at h
        cases h
      | ok v =>
        rw [hv] at h
        rw [List.map_cons, List.foldl_cons, Row.cell_of_named hv]
        exact ih _ h
  exact hfold n.columns .empty h

/-- The record that a node makes of a row. -/
def Node.makes (n : Node) (row : Row) (parent : Option Nat) (key : String) : KeyedRecord :=
  { node := n.id, values := n.values row, parent, key }

/-- What absorbing a row does at one node: nothing if the row has no key, else it gives the record of the
key, which is added at the end if it is new. -/
theorem Node.absorb_ok {n : Node} {row : Row} {parent : Option Nat} {a a' : Arena}
    {found : Option Nat} (ha : a.InStep) (h : n.absorb row parent a = (.ok found, a')) :
    (found = none ∧ n.key? row = none ∧ a' = a) ∨
      ∃ key q, found = some q ∧ n.key? row = some key ∧
        ((a' = a ∧ ∃ e, (e, q) ∈ a.entries n.id parent ∧ e.key = key) ∨
          (key ∉ (a.entries n.id parent).map (·.1.key) ∧ q = a.records.length ∧
            a' = a.push (n.makes row parent key))) := by
  unfold Node.absorb at h
  split at h
  · cases h
  · rename_i key hkey
    have hcell := Row.cell_of_named hkey
    split at h
    · rename_i hnull
      cases h
      exact .inl ⟨rfl, by simp [Node.key?, hcell, hnull], rfl⟩
    · rename_i hnull
      have hkey? : n.key? row = some key.identity := by simp [Node.key?, hcell, hnull]
      split at h
      · rename_i q hq
        cases h
        obtain ⟨e, he, hnode, hparent, hekey⟩ := ha.of_find? hq
        exact .inr ⟨_, q, rfl, hkey?, .inl ⟨rfl, e, Arena.mem_entries.mpr ⟨he, hnode, hparent⟩, hekey⟩⟩
      · rename_i hnone
        split at h
        · cases h
        · rename_i map hmap
          cases h
          refine .inr ⟨_, _, rfl, hkey?, .inr ⟨?_, rfl, by rw [makes, Node.values_of_readColumns hmap]⟩⟩
          intro hmem
          obtain ⟨⟨e, q⟩, he, heq⟩ := List.mem_map.mp hmem
          obtain ⟨he, hnode, hparent⟩ := Arena.mem_entries.mp he
          exact ha.of_find?_eq_none hnone (List.mem_of_getElem? he) ⟨hnode, hparent, heq⟩

/-- Whatever becomes of it, absorbing a row at a node adds records of that node only. -/
theorem Node.absorb_extends {n : Node} {row : Row} {parent : Option Nat} {a a' : Arena}
    {result : Except Error (Option Nat)} (h : n.absorb row parent a = (result, a')) :
    a.Extends a' (· = n.id) := by
  unfold Node.absorb at h
  split at h
  · cases h
    exact .refl ..
  · split at h
    · cases h
      exact .refl ..
    · split at h
      · cases h
        exact .refl ..
      · split at h <;> cases h
        · exact .refl ..
        · exact .push rfl

namespace LoadTree

variable {row : Row} {source : RowSource} {a a' : Arena} {result : Except Error Unit}

/-- The numbers of the nodes of a tree that are read from a statement. -/
def ReadFrom (t : LoadTree) (source : RowSource) (id : Nat) : Prop :=
  ∃ u ∈ t.subtrees, u.info.id = id ∧ u.info.source = source

theorem ReadFrom.mem_ids {t : LoadTree} {id : Nat} (h : t.ReadFrom source id) : id ∈ t.ids := by
  obtain ⟨u, hu, rfl, -⟩ := h
  exact ids_subset hu (id_mem_ids u)

/-- Absorbing a row below a record only adds records of children, if it is so for each of them. -/
private theorem absorbBelow_extends_of {children : List LoadTree}
    (ih : ∀ c ∈ children, ∀ {parent : Option Nat} {a a' : Arena} {result : Except Error Unit},
      c.info.source = source → c.absorb row source parent a = (result, a') →
      a.Extends a' (c.ReadFrom source)) {q : Nat}
    (h : absorbBelow row source q children a = (result, a')) :
    a.Extends a' fun id => ∃ c ∈ children, c.ReadFrom source id := by
  induction children generalizing a with
  | nil =>
    cases h
    exact .refl ..
  | cons c rest ihrest =>
    have hrest {a : Arena} (h : absorbBelow row source q rest a = (result, a')) :
        a.Extends a' fun id => ∃ c' ∈ c :: rest, c'.ReadFrom source id := by
      refine (ihrest (fun c' hc' => ih c' (List.mem_cons_of_mem _ hc')) h).mono ?_
      rintro id ⟨c', hc', hid⟩
      exact ⟨c', List.mem_cons_of_mem _ hc', hid⟩
    unfold absorbBelow at h
    split at h
    · rename_i hsource
      have hfirst {result : Except Error Unit} {a₁ : Arena}
          (h₁ : c.absorb row source (some q) a = (result, a₁)) :
          a.Extends a₁ fun id => ∃ c' ∈ c :: rest, c'.ReadFrom source id :=
        (ih c List.mem_cons_self hsource h₁).mono fun id hid => ⟨c, List.mem_cons_self, hid⟩
      split at h
      · rename_i h₁
        cases h
        exact hfirst h₁
      · rename_i h₁
        exact (hfirst h₁).trans (hrest h)
    · exact hrest h

/-- Absorbing a row adds records of nodes that are read from its statement. -/
theorem absorb_extends {t : LoadTree} {parent : Option Nat} (hsource : t.info.source = source)
    (h : t.absorb row source parent a = (result, a')) : a.Extends a' (t.ReadFrom source) := by
  induction t using induction generalizing parent a a' result with
  | node n children ih =>
    have hn {found : Except Error (Option Nat)} {a₁ : Arena} (h₁ : n.absorb row parent a = (found, a₁)) :
        a.Extends a₁ ((node n children).ReadFrom source) := by
      refine (Node.absorb_extends h₁).mono ?_
      rintro id rfl
      exact ⟨_, mem_subtrees_self _, rfl, hsource⟩
    unfold absorb at h
    split at h
    · rename_i h₁
      cases h
      exact hn h₁
    · rename_i h₁
      cases h
      exact hn h₁
    · rename_i h₁
      refine (hn h₁).trans ((absorbBelow_extends_of (fun c hc => ih c hc) h).mono ?_)
      rintro id ⟨c, hc, u, hu, hid⟩
      exact ⟨u, mem_subtrees_node.mpr (.inr ⟨c, hc, hu⟩), hid⟩

/-- Absorbing a row below a record adds records of children that are read from its statement. -/
theorem absorbBelow_extends {children : List LoadTree} {q : Nat}
    (h : absorbBelow row source q children a = (result, a')) :
    a.Extends a' fun id => ∃ c ∈ children, c.ReadFrom source id :=
  absorbBelow_extends_of (fun _ _ _ _ _ _ hsource h => absorb_extends hsource h) h

end LoadTree

end EagerLoad
