import EagerLoad.Proofs.Loading.Reference
import EagerLoad.Proofs.Plan.Tree

/-!
# Scopes that stand for rows

A statement enumerates scopes, in which the rows of all its tables are joined. Grouped by the key of a
node, and each group by the keys of the nodes below that are read from the same statement, they stand for
rows and for the rows to which these lead. Joining in what a further node needs keeps this.
-/

namespace EagerLoad

open Sql

section Repetitions

variable {α β : Type} [BEq β] [LawfulBEq β]

theorem eraseDups_of_nodup {l : List β} (h : l.Nodup) : l.eraseDups = l := by
  induction l using List.reverseRecOn with
  | nil => rfl
  | append_singleton l a ih =>
    obtain ⟨hl, -, hdisjoint⟩ := List.nodup_append'.mp h
    have ha : a ∉ l := by simpa [List.disjoint_singleton] using hdisjoint
    rw [eraseDups_concat, if_neg ha, ih hl]

/-- To drop repetitions and to pick are done in any order. -/
theorem eraseDups_filter (p : β → Bool) (l : List β) : (l.filter p).eraseDups = l.eraseDups.filter p := by
  induction l using List.reverseRecOn with
  | nil => rfl
  | append_singleton l a ih =>
    by_cases hp : p a <;> by_cases ha : a ∈ l <;>
      simp [List.filter_append, eraseDups_concat, ih, hp, ha]

/-- What is left of two lists without repetitions depends on what is left of each. -/
theorem eraseDups_append_congr {l l' m m' : List β} (hl : l.eraseDups = l'.eraseDups)
    (hm : m.eraseDups = m'.eraseDups) : (l ++ m).eraseDups = (l' ++ m').eraseDups := by
  have hmem (x : β) : x ∈ l ↔ x ∈ l' := by
    rw [← List.mem_eraseDups, hl, List.mem_eraseDups]
  have hrest : m.removeAll l = m.filter fun x => x ∉ l' := by
    apply List.filter_congr
    intro x _
    rw [Bool.eq_iff_iff]
    simp [hmem]
  have hrest' : m'.removeAll l' = m'.filter fun x => x ∉ l' := by
    apply List.filter_congr
    intro x _
    rw [Bool.eq_iff_iff]
    simp
  rw [List.eraseDups_append, List.eraseDups_append, hl, hrest, hrest', eraseDups_filter,
    eraseDups_filter, hm]

theorem eraseDups_flatMap_congr {f g : α → List β} {l : List α}
    (h : ∀ a ∈ l, (f a).eraseDups = (g a).eraseDups) :
    (l.flatMap f).eraseDups = (l.flatMap g).eraseDups := by
  induction l with
  | nil => rfl
  | cons a rest ih =>
    rw [List.flatMap_cons, List.flatMap_cons]
    exact eraseDups_append_congr (h a List.mem_cons_self)
      (ih fun b hb => h b (List.mem_cons_of_mem _ hb))

/-- Elements that are repeated for each of some others are each kept once. -/
theorem eraseDups_flatMap_const {l : List α} (hl : l ≠ []) (m : List β) :
    (l.flatMap fun _ => m).eraseDups = m.eraseDups := by
  cases l with
  | nil => exact absurd rfl hl
  | cons a rest =>
    rw [List.flatMap_cons, List.eraseDups_append]
    have hnone : (rest.flatMap fun _ => m).removeAll m = [] := by
      apply List.filter_eq_nil_iff.mpr
      intro x hx
      obtain ⟨_, -, hx⟩ := List.mem_flatMap.mp hx
      simpa using hx
    rw [hnone, List.eraseDups_nil, List.append_nil]

end Repetitions

/-- Picking from what elements yield, where this is settled by the element. -/
theorem filter_flatMap_of_forall {α β : Type} {f : α → List β} {p : β → Bool} {q : α → Bool} {l : List α}
    (h : ∀ a ∈ l, ∀ b ∈ f a, p b = q a) : (l.flatMap f).filter p = (l.filter q).flatMap f := by
  induction l with
  | nil => rfl
  | cons a rest ih =>
    have hrest := ih fun a' ha' => h a' (List.mem_cons_of_mem _ ha')
    have hfirst := h a List.mem_cons_self
    rw [List.flatMap_cons, List.filter_append, hrest, List.filter_cons]
    by_cases ha : q a = true
    · have hall : (f a).filter p = f a := List.filter_eq_self.mpr fun b hb => (hfirst b hb).trans ha
      rw [hall, if_pos ha, List.flatMap_cons]
    · have hnone : (f a).filter p = [] :=
        List.filter_eq_nil_iff.mpr fun b hb => (hfirst b hb).symm ▸ ha
      rw [hnone, if_neg ha, List.nil_append]

/-- Of elements with different keys one has the key of a given one. -/
theorem filter_eq_singleton_of_nodup {α β : Type} [DecidableEq β] {key : α → β} {l : List α} {a : α}
    (hnodup : (l.map key).Nodup) (ha : a ∈ l) : l.filter (fun b => key b = key a) = [a] := by
  induction l with
  | nil => exact absurd ha List.not_mem_nil
  | cons b rest ih =>
    obtain ⟨hb, hrest⟩ := List.nodup_cons.mp hnodup
    rcases List.mem_cons.mp ha with rfl | ha
    · have hnone : rest.filter (fun b => key b = key a) = [] := by
        refine List.filter_eq_nil_iff.mpr fun c hc heq => hb ?_
        exact of_decide_eq_true heq ▸ List.mem_map_of_mem hc
      rw [List.filter_cons_of_pos (by simp), hnone]
    · have hne : key b ≠ key a := fun heq => hb (heq ▸ List.mem_map_of_mem ha)
      rw [List.filter_cons_of_neg (by simpa using hne), ih hrest ha]

namespace Node

variable (n : Node)

/-- The identity of the key that a scope has for a node; none if the key is null. -/
def scopeKey? (scope : Scope) : Option String :=
  let key := scope.cell n.tableAlias n.primaryKey
  if key.isNull then none else some key.identity

/-- The distinct keys of scopes, in the order in which they are first seen. -/
def scopeKeys (scopes : List Scope) : List String :=
  (scopes.filterMap n.scopeKey?).eraseDups

/-- The scopes of a key. -/
def scopesOf (key : String) (scopes : List Scope) : List Scope :=
  scopes.filter fun scope => n.scopeKey? scope = some key

/-- The identity of the key of a row. -/
def rowKey (row : Tuple) : String :=
  (row.cell n.primaryKey).identity

/-- A scope has a row for a node. -/
def Shows (scope : Scope) (row : Tuple) : Prop :=
  ∀ column ∈ n.columns, scope.cell n.tableAlias column = row.cell column

variable {n} {key : String} {scope scope' : Scope} {scopes : List Scope} {row : Tuple}
  {extend : Scope → List Scope}

theorem mem_scopeKeys : key ∈ n.scopeKeys scopes ↔ ∃ scope ∈ scopes, n.scopeKey? scope = some key := by
  rw [scopeKeys, List.mem_eraseDups, List.mem_filterMap]

theorem mem_scopesOf : scope ∈ n.scopesOf key scopes ↔ scope ∈ scopes ∧ n.scopeKey? scope = some key := by
  simp [scopesOf]

/-- The key of a scope depends on the cells of the node's alias. -/
theorem scopeKey?_congr
    (h : ∀ column, scope'.cell n.tableAlias column = scope.cell n.tableAlias column) :
    n.scopeKey? scope' = n.scopeKey? scope := by
  simp only [scopeKey?, h]

/-- Where every scope is extended and keeps its key, the keys are the same. -/
theorem scopeKeys_flatMap (hne : ∀ scope ∈ scopes, extend scope ≠ [])
    (hkey : ∀ scope ∈ scopes, ∀ scope' ∈ extend scope, n.scopeKey? scope' = n.scopeKey? scope) :
    n.scopeKeys (scopes.flatMap extend) = n.scopeKeys scopes := by
  rw [scopeKeys, scopeKeys, List.filterMap_flatMap, List.filterMap_eq_flatMap_toList]
  apply eraseDups_flatMap_congr
  intro scope hscope
  have hsame : (extend scope).filterMap n.scopeKey? =
      (extend scope).flatMap fun _ => (n.scopeKey? scope).toList := by
    rw [List.filterMap_eq_flatMap_toList]
    exact List.flatMap_congr fun scope' hscope' => by rw [hkey scope hscope scope' hscope']
  rw [hsame, eraseDups_flatMap_const (hne scope hscope)]

/-- The scopes of a key are extended by themselves. -/
theorem scopesOf_flatMap
    (hkey : ∀ scope ∈ scopes, ∀ scope' ∈ extend scope, n.scopeKey? scope' = n.scopeKey? scope) :
    n.scopesOf key (scopes.flatMap extend) = (n.scopesOf key scopes).flatMap extend :=
  filter_flatMap_of_forall fun scope hscope scope' hscope' => by rw [hkey scope hscope scope' hscope']

end Node

variable {targets : Node → Tuple → List Tuple}

/-- Scopes stand for rows of a node, and for the rows to which these lead along the nodes below that are
read from the same statement. -/
inductive Stands (targets : Node → Tuple → List Tuple) : LoadTree → List Scope → List Tuple → Prop
  | node {n : Node} {children : List LoadTree} {scopes : List Scope} {rows : List Tuple} :
    n.scopeKeys scopes = rows.map n.rowKey →
    (∀ row ∈ rows, ∀ scope ∈ n.scopesOf (n.rowKey row) scopes, n.Shows scope row) →
    (∀ c ∈ children, c.info.source = n.source → ∀ row ∈ rows,
      Stands targets c (n.scopesOf (n.rowKey row) scopes) (targets c.info row)) →
    Stands targets (.node n children) scopes rows

namespace Stands

variable {t : LoadTree} {n : Node} {scopes : List Scope} {rows : List Tuple}
  {extend : Scope → List Scope}

/-- No scopes stand for no rows. -/
theorem nil (t : LoadTree) : Stands targets t [] [] := by
  cases t
  exact .node rfl (by simp) (by simp)

/-- There is a scope for each of the rows. -/
theorem scopesOf_ne_nil (h : n.scopeKeys scopes = rows.map n.rowKey) {row : Tuple} (hrow : row ∈ rows) :
    n.scopesOf (n.rowKey row) scopes ≠ [] := by
  have hmem : n.rowKey row ∈ n.scopeKeys scopes := h ▸ List.mem_map_of_mem hrow
  obtain ⟨scope, hscope, hkey⟩ := Node.mem_scopeKeys.mp hmem
  exact List.ne_nil_of_mem (Node.mem_scopesOf.mpr ⟨hscope, hkey⟩)

/-- Scopes that stand for rows do so after what a further node needs is joined in, if this brings in the
rows to which the rows of its parent lead. -/
theorem attach (h : Stands targets t scopes rows)
    (hkeep : ∀ scope ∈ scopes, extend scope ≠ [] ∧ ∀ scope' ∈ extend scope, ∀ m ∈ t.nodes,
      ∀ column, scope'.cell m.tableAlias column = scope.cell m.tableAlias column)
    (hnew : n.source = t.info.source → ∀ m ∈ t.nodes, n.parent = some m.id → ∀ row part, part ≠ [] →
      (∀ scope ∈ part, m.Shows scope row) →
      Stands targets (.node n []) (part.flatMap extend) (targets n row)) :
    Stands targets (t.attach n) (scopes.flatMap extend) rows := by
  induction h with
  | @node m children scopes rows hkeys hshows _ ih =>
    have hm : m ∈ (LoadTree.node m children).nodes := by
      rw [LoadTree.nodes_node]
      exact List.mem_cons_self
    have hkey : ∀ scope ∈ scopes, ∀ scope' ∈ extend scope, m.scopeKey? scope' = m.scopeKey? scope :=
      fun scope hscope scope' hscope' =>
        Node.scopeKey?_congr ((hkeep scope hscope).2 scope' hscope' m hm)
    have hkeys' : m.scopeKeys (scopes.flatMap extend) = rows.map m.rowKey := by
      rw [Node.scopeKeys_flatMap (fun scope hscope => (hkeep scope hscope).1) hkey, hkeys]
    rw [LoadTree.attach_node]
    refine .node hkeys' (fun row hrow scope' hscope' column hcolumn => ?_)
      fun c hc hsource row hrow => ?_
    · rw [Node.scopesOf_flatMap hkey] at hscope'
      obtain ⟨scope, hscope, hscope'⟩ := List.mem_flatMap.mp hscope'
      rw [(hkeep scope (Node.mem_scopesOf.mp hscope).1).2 scope' hscope' m hm]
      exact hshows row hrow scope hscope column hcolumn
    · rw [Node.scopesOf_flatMap hkey]
      rcases List.mem_append.mp hc with hattached | hleaf
      · obtain ⟨c, hchild, rfl⟩ := List.mem_map.mp hattached
        rw [LoadTree.info_attach] at hsource ⊢
        have hsub : c.nodes ⊆ (LoadTree.node m children).nodes :=
          LoadTree.nodes_subset (LoadTree.mem_subtrees_of_mem_children hchild)
        refine ih c hchild hsource row hrow (fun scope hscope => ?_) fun hn q hq => ?_
        · obtain ⟨hne, hcells⟩ := hkeep scope (Node.mem_scopesOf.mp hscope).1
          exact ⟨hne, fun scope' hscope' q hq => hcells scope' hscope' q (hsub hq)⟩
        · exact hnew (hn.trans hsource) q (hsub hq)
      · split at hleaf
        · rename_i hparent
          obtain rfl := List.mem_singleton.mp hleaf
          exact hnew hsource m hm hparent row _ (scopesOf_ne_nil hkeys hrow) (hshows row hrow)
        · exact absurd hleaf List.not_mem_nil

end Stands

end EagerLoad
