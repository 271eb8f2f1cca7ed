import EagerLoad.Plan.Compile
import EagerLoad.Proofs.Sql.Evaluation

/-!
# Scopes of statements

A statement introduces aliases one after the other: that of its source, then one for each join. The
condition of a join sees its own alias and those before it, a lateral sub-select sees what stands before
its join, and everything else of a statement sees all its aliases. Behind an alias stands an entity, a
junction or a sub-select, and that tells which columns the alias has.
-/

namespace EagerLoad

open Sql

/-- What stands behind an alias. -/
inductive Behind (s : Schema) where
  | entity (id : s.EntityId)
  /-- The junction of a relation. -/
  | junction (id : s.RelationId)
  /-- A sub-select, with what stands behind the alias of its source and the names of the columns that it
  projects. -/
  | lateral (source : Behind s) (columns : List String)

/-- The aliases that are introduced up to some point of a statement, in order. -/
abbrev Introduced (s : Schema) := List (String × Behind s)

variable {s : Schema} {r : Request} {seen more : Introduced s}

namespace Behind

/-- The columns that may be taken: declared or projected ones. A junction's columns are not declared. -/
def Has : Behind s → String → Prop
  | .entity id, column => column ∈ (s.entity id).columns
  | .junction _, _ => True
  | .lateral _ columns, column => column ∈ columns

/-- The table in which the rows are stored. -/
def StoredIn : Behind s → String → Prop
  | .entity id, table => (s.entity id).table = table
  | .junction id, table => ∃ junction, (s.relation id).junction = some junction ∧ junction.table = table
  | .lateral _ _, _ => False

end Behind

/-- The name under which a sub-select offers what it projects. -/
def Sql.Projection.offered? : Projection → Option String
  | .column c label => some (label.getD c.name)
  | .everything _ => none

/-- The names of the columns that a sub-select projects one by one. -/
def Sql.Select.offered (q : Select) : List String :=
  q.projections.filterMap Projection.offered?

namespace Sql.Column

/-- A column that is qualified with an alias introduced before. -/
def Qualified (c : Column) (seen : Introduced s) : Prop :=
  ∃ entry ∈ seen, c.qualifier = some entry.1

/-- A column that the alias by which it is qualified has. -/
def Declared (c : Column) (seen : Introduced s) : Prop :=
  ∃ entry ∈ seen, c.qualifier = some entry.1 ∧ entry.2.Has c.name

end Sql.Column

/-- The columns of a condition that are not part of an adjustment of the request. -/
inductive Sql.Condition.Owns (r : Request) : Condition → List Column → Prop
  | plain (c : Condition) : Owns r c c.columns
  /-- A condition that is narrowed by an adjustment. -/
  | narrowed (c : Condition) {relation tableAlias : String} {adjustment : Condition} :
    r.adjustments.get? relation = some adjustment →
    Owns r (c.both (adjustment.qualified tableAlias)) c.columns
  | adjustment {relation tableAlias : String} {adjustment : Condition} :
    r.adjustments.get? relation = some adjustment → Owns r (adjustment.qualified tableAlias) []

/-- Every column of the condition is qualified, and those not of an adjustment are declared. -/
def Sql.Condition.Scoped (r : Request) (seen : Introduced s) (c : Condition) : Prop :=
  (∀ column ∈ c.columns, column.Qualified seen) ∧
    ∃ own, c.Owns r own ∧ ∀ column ∈ own, column.Declared seen

/-- A projected column is declared, and a projected alias is introduced. -/
def Sql.Projection.Scoped (seen : Introduced s) : Projection → Prop
  | .column c _ => c.Declared seen
  | .everything tableAlias => ∃ entry ∈ seen, entry.1 = tableAlias

namespace Sql

mutual

/-- A statement inside `outer` that reads from `first`, refers to what is introduced, and introduces the
aliases up to `seen`. -/
def Select.Scoped (r : Request) : Select → (outer : Introduced s) → (first : Behind s) →
    (seen : Introduced s) → Prop
  | ⟨source, projections, joins, conditions, ordering, _, _⟩, outer, first, seen =>
    source.Gives r first ∧ Join.ScopedAll r joins (outer ++ [(source.tableAlias, first)]) seen ∧
      (∀ q ∈ projections, q.Scoped seen) ∧ (∀ c ∈ conditions, c.Scoped r seen) ∧
      ∀ key ∈ ordering, key.1.Declared seen

/-- What a source puts behind its alias: an entity, or a sub-select that sees nothing else. -/
def Source.Gives (r : Request) : Source → Behind s → Prop
  | .table table _, behind => ∃ id, behind = .entity id ∧ behind.StoredIn table
  | .derived query _, behind =>
    ∃ first inner, query.Scoped r [] first inner ∧ behind = .lateral first query.offered

/-- Joins after `seen` that refer to what is introduced, and introduce the aliases up to `seen'`. -/
def Join.ScopedAll (r : Request) : List Join → (seen seen' : Introduced s) → Prop
  | [], seen, seen' => seen' = seen
  | ⟨_, target, tableAlias, on⟩ :: rest, seen, seen' =>
    ∃ behind, target.Gives r seen behind ∧ on.Scoped r (seen ++ [(tableAlias, behind)]) ∧
      Join.ScopedAll r rest (seen ++ [(tableAlias, behind)]) seen'

/-- What a join after `seen` puts behind its alias. -/
def JoinTarget.Gives (r : Request) : JoinTarget → Introduced s → Behind s → Prop
  | .table table, _, behind => behind.StoredIn table
  | .lateral query, seen, behind =>
    ∃ first inner, query.Scoped r seen first inner ∧ behind = .lateral first query.offered

end

mutual

/-- The aliases that a statement introduces, those of what it nests included. -/
def Select.aliases : Select → List String
  | ⟨source, _, joins, _, _, _, _⟩ => source.aliases ++ Join.aliasesAll joins

/-- The aliases that a source introduces. -/
def Source.aliases : Source → List String
  | .table _ tableAlias => [tableAlias]
  | .derived query tableAlias => query.aliases ++ [tableAlias]

/-- The aliases that joins introduce. -/
def Join.aliasesAll : List Join → List String
  | [] => []
  | ⟨_, target, tableAlias, _⟩ :: rest => target.aliases ++ tableAlias :: Join.aliasesAll rest

/-- The aliases that are introduced inside the target of a join. -/
def JoinTarget.aliases : JoinTarget → List String
  | .table _ => []
  | .lateral query => query.aliases

end

end Sql

namespace Sql.Condition

/-- Both conditions mention what the one or the other mentions. -/
theorem mem_columns_both {column : Column} {left right : Condition} :
    column ∈ (left.both right).columns ↔ column ∈ left.columns ∨ column ∈ right.columns := by
  unfold both
  split
  · simp only [columns, mem_columnsAll, List.mem_append, List.mem_singleton, or_and_right, exists_or,
      exists_eq_left]
  · simp only [columns, columnsAll, List.mem_append, List.append_nil]

/-- A qualified condition mentions the qualified columns. -/
theorem mem_columns_qualified {column : Column} {tableAlias : String} {c : Condition} :
    column ∈ (c.qualified tableAlias).columns ↔
      ∃ own ∈ c.columns, own.qualified tableAlias = column := by
  have hall (items : List Condition) (ih : ∀ c ∈ items, column ∈ (c.qualified tableAlias).columns ↔
      ∃ own ∈ c.columns, own.qualified tableAlias = column) :
      column ∈ columnsAll (qualifiedAll tableAlias items) ↔
        ∃ own ∈ columnsAll items, own.qualified tableAlias = column := by
    simp only [qualifiedAll_eq_map, mem_columnsAll, List.mem_map, exists_exists_and_eq_and]
    constructor
    · rintro ⟨c, hc, hcolumn⟩
      obtain ⟨own, hown, heq⟩ := (ih c hc).mp hcolumn
      exact ⟨own, ⟨c, hc, hown⟩, heq⟩
    · rintro ⟨own, ⟨c, hc, hown⟩, heq⟩
      exact ⟨c, hc, (ih c hc).mpr ⟨own, hown, heq⟩⟩
  induction c using Condition.induction with
  | compare column operator v => simp [qualified, columns, eq_comm]
  | inList column values negated => simp [qualified, columns, eq_comm]
  | isNull column negated => simp [qualified, columns, eq_comm]
  | columnsEqual left right => simp [qualified, columns, eq_comm]
  | and items ih => simpa only [qualified, columns] using hall items ih
  | or items ih => simpa only [qualified, columns] using hall items ih
  | not c ih => simpa only [qualified, columns] using ih
  | literal truth => simp [qualified, columns]

/-- The columns of an unqualified condition, when qualified, are those of the alias. -/
theorem Unqualified.qualifier_eq {c : Condition} (h : c.Unqualified) {column : Column}
    {tableAlias : String} (hcolumn : column ∈ (c.qualified tableAlias).columns) :
    column.qualifier = some tableAlias := by
  obtain ⟨own, hown, rfl⟩ := mem_columns_qualified.mp hcolumn
  rw [Column.qualified, h own hown, Option.getD_none]

/-- The columns of a join between two aliases. -/
theorem mem_columns_pairsEqual {column : Column} {pairs : JoinPairs} {left right : String} :
    column ∈ (pairsEqual pairs left right).columns ↔
      ∃ pair ∈ pairs, column = .of left pair.1 ∨ column = .of right pair.2 := by
  have hall (items : List Condition) : column ∈ (all items).columns ↔ column ∈ columnsAll items := by
    unfold all
    split
    · simp only [columnsAll, List.append_nil]
    · rfl
  rw [pairsEqual, hall, mem_columnsAll]
  simp [columns]

end Sql.Condition

namespace Sql

theorem Column.Declared.qualified {c : Column} (h : c.Declared seen) : c.Qualified seen := by
  obtain ⟨entry, hentry, hqualifier, -⟩ := h
  exact ⟨entry, hentry, hqualifier⟩

/-- A column of an alias behind which stands what has it. -/
theorem Column.declared_of {tableAlias column : String} {behind : Behind s}
    (hmem : (tableAlias, behind) ∈ seen) (hhas : behind.Has column) :
    (Column.of tableAlias column).Declared seen :=
  ⟨_, hmem, rfl, hhas⟩

section Mono

variable {seen' : Introduced s} (hsub : seen ⊆ seen')

include hsub

theorem Column.Qualified.mono {c : Column} (h : c.Qualified seen) : c.Qualified seen' := by
  obtain ⟨entry, hentry, hqualifier⟩ := h
  exact ⟨entry, hsub hentry, hqualifier⟩

theorem Column.Declared.mono {c : Column} (h : c.Declared seen) : c.Declared seen' := by
  obtain ⟨entry, hentry, hqualifier, hhas⟩ := h
  exact ⟨entry, hsub hentry, hqualifier, hhas⟩

theorem Condition.Scoped.mono {c : Condition} (h : c.Scoped r seen) : c.Scoped r seen' := by
  obtain ⟨hqualified, own, howns, hown⟩ := h
  exact ⟨fun column hcolumn => (hqualified column hcolumn).mono hsub, own, howns,
    fun column hcolumn => (hown column hcolumn).mono hsub⟩

theorem Projection.Scoped.mono {q : Projection} (h : q.Scoped seen) : q.Scoped seen' := by
  cases q with
  | column c label => exact Column.Declared.mono hsub h
  | everything tableAlias =>
    obtain ⟨entry, hentry, heq⟩ := h
    exact ⟨entry, hsub hentry, heq⟩

end Mono

namespace Condition

/-- A condition whose columns are all declared. -/
theorem scoped_of_declared {c : Condition} (h : ∀ column ∈ c.columns, column.Declared seen) :
    c.Scoped r seen :=
  ⟨fun column hcolumn => (h column hcolumn).qualified, _, .plain c, h⟩

/-- The adjustments of a request are on columns of the target. -/
theorem scoped_adjustment {relation tableAlias : String} {adjustment : Condition}
    {behind : Behind s} (hadjustment : r.adjustments.get? relation = some adjustment)
    (hunqualified : adjustment.Unqualified) (hmem : (tableAlias, behind) ∈ seen) :
    (adjustment.qualified tableAlias).Scoped r seen :=
  ⟨fun _ hcolumn => ⟨_, hmem, hunqualified.qualifier_eq hcolumn⟩, [], .adjustment hadjustment,
    fun _ hcolumn => absurd hcolumn List.not_mem_nil⟩

/-- A condition whose columns are declared, narrowed by an adjustment. -/
theorem scoped_narrowed {c : Condition} {relation tableAlias : String} {adjustment : Condition}
    {behind : Behind s} (h : ∀ column ∈ c.columns, column.Declared seen)
    (hadjustment : r.adjustments.get? relation = some adjustment)
    (hunqualified : adjustment.Unqualified) (hmem : (tableAlias, behind) ∈ seen) :
    (c.both (adjustment.qualified tableAlias)).Scoped r seen := by
  refine ⟨fun column hcolumn => ?_, c.columns, .narrowed c hadjustment, h⟩
  rcases mem_columns_both.mp hcolumn with hcolumn | hcolumn
  · exact (h column hcolumn).qualified
  · exact ⟨_, hmem, hunqualified.qualifier_eq hcolumn⟩

/-- The columns of a join between two aliases are declared if each side has its own. -/
theorem declared_pairsEqual {pairs : JoinPairs} {left right : String} {behind behind' : Behind s}
    (hleft : (left, behind) ∈ seen) (hright : (right, behind') ∈ seen)
    (hleftHas : ∀ column ∈ pairs.left, behind.Has column)
    (hrightHas : ∀ column ∈ pairs.right, behind'.Has column) :
    ∀ column ∈ (pairsEqual pairs left right).columns, column.Declared seen := by
  intro column hcolumn
  obtain ⟨pair, hpair, rfl | rfl⟩ := mem_columns_pairsEqual.mp hcolumn
  · exact Column.declared_of hleft (hleftHas _ (List.mem_map_of_mem hpair))
  · exact Column.declared_of hright (hrightHas _ (List.mem_map_of_mem hpair))

end Condition

/-- Joins after joins. -/
theorem Join.scopedAll_append {joins joins' : List Join} {seen₁ seen₂ : Introduced s}
    (h : Join.ScopedAll r joins seen seen₁) (h' : Join.ScopedAll r joins' seen₁ seen₂) :
    Join.ScopedAll r (joins ++ joins') seen seen₂ := by
  induction joins generalizing seen with
  | nil =>
    cases h
    exact h'
  | cons join rest ih =>
    obtain ⟨kind, target, tableAlias, on⟩ := join
    obtain ⟨behind, hgives, hon, hrest⟩ := h
    exact ⟨behind, hgives, hon, ih hrest⟩

/-- The columns of an alias, each under its label, may be projected if the alias has them. -/
theorem Projection.scoped_labelledColumns {tableAlias : String} {columns : List String}
    {behind : Behind s} (hmem : (tableAlias, behind) ∈ seen) (h : ∀ column ∈ columns, behind.Has column) :
    ∀ q ∈ labelledColumns tableAlias columns, q.Scoped seen := by
  intro q hq
  obtain ⟨column, hcolumn, rfl⟩ := List.mem_map.mp hq
  exact Column.declared_of hmem (h column hcolumn)

/-- A statement stays well scoped with joins that are, and with columns that these bring in. -/
theorem Select.Scoped.bringIn {q : Select} {outer : Introduced s} {joins : List Join}
    {tableAlias : String} {columns : List String} {first behind : Behind s}
    (h : q.Scoped r outer first seen)
    (hjoins : Join.ScopedAll r joins seen (seen ++ more))
    (hmem : (tableAlias, behind) ∈ seen ++ more) (hhas : ∀ column ∈ columns, behind.Has column) :
    (q.bringIn joins tableAlias columns).Scoped r outer first (seen ++ more) := by
  obtain ⟨source, projections, own, conditions, ordering, limit, offset⟩ := q
  obtain ⟨hgives, hown, hprojections, hconditions, hordering⟩ := h
  have hsub : seen ⊆ seen ++ more := List.subset_append_left _ _
  refine ⟨hgives, Join.scopedAll_append hown hjoins, fun q hq => ?_,
    fun c hc => (hconditions c hc).mono hsub, fun key hkey => (hordering key hkey).mono hsub⟩
  rcases List.mem_append.mp hq with hq | hq
  · exact (hprojections q hq).mono hsub
  · exact Projection.scoped_labelledColumns hmem hhas q hq

theorem Join.aliasesAll_append (joins joins' : List Join) :
    Join.aliasesAll (joins ++ joins') = Join.aliasesAll joins ++ Join.aliasesAll joins' := by
  induction joins with
  | nil => rfl
  | cons join rest ih =>
    obtain ⟨kind, target, tableAlias, on⟩ := join
    simp [Join.aliasesAll, ih]

/-- The alias under which a join stands is one that joins introduce. -/
theorem Join.tableAlias_mem_aliasesAll {join : Join} {joins : List Join} (h : join ∈ joins) :
    join.tableAlias ∈ Join.aliasesAll joins := by
  induction joins with
  | nil => exact absurd h List.not_mem_nil
  | cons first rest ih =>
    obtain ⟨kind, target, tableAlias, on⟩ := first
    rw [Join.aliasesAll, List.mem_append, List.mem_cons]
    rcases List.mem_cons.mp h with rfl | h
    · exact .inr (.inl rfl)
    · exact .inr (.inr (ih h))

theorem Select.aliases_bringIn (q : Select) (joins : List Join) (tableAlias : String)
    (columns : List String) :
    (q.bringIn joins tableAlias columns).aliases = q.aliases ++ Join.aliasesAll joins := by
  obtain ⟨source, projections, own, conditions, ordering, limit, offset⟩ := q
  simp [Select.bringIn, Select.aliases, Join.aliasesAll_append]

end Sql

end EagerLoad
