import EagerLoad.Plan.Compile
import EagerLoad.Proofs.Sql.Meaning

/-!
# Evaluating statements

What the conditions, joins and orderings that plans are made of mean: equal columns of two aliases, a
condition on the columns of one alias, joins one after the other, and a stable sort of part of a list.
-/

namespace EagerLoad

open Sql

variable {db : Database} {a b : String} {row : Tuple} {scope : Scope} {value : Column → Value}

@[simp] theorem Tuple.cell_nulls (columns : List String) (column : String) :
    (Tuple.nulls columns).cell column = .null := by
  induction columns with
  | nil => rfl
  | cons first rest ih =>
    simp only [Tuple.nulls, Tuple.cell, List.map_cons, List.lookup_cons]
    split
    · rfl
    · exact ih

/-- The value of a column in a row of some columns. -/
theorem Tuple.cell_map {columns : List String} {column : String} (f : String → Value)
    (h : column ∈ columns) : (Tuple.mk (columns.map fun c => (c, f c))).cell column = f column := by
  induction columns with
  | nil => exact absurd h List.not_mem_nil
  | cons first rest ih =>
    simp only [Tuple.cell, List.map_cons, List.lookup_cons] at ih ⊢
    by_cases hcolumn : column = first
    · simp [hcolumn]
    · have hne : (column == first) = false := by simpa using hcolumn
      rw [hne]
      exact ih (List.mem_of_ne_of_mem hcolumn h)

namespace Scope

@[simp] theorem cell_cons_self (column : String) :
    Scope.cell ((a, row) :: scope) a column = row.cell column := by
  simp [Scope.cell]

theorem cell_cons_of_ne (h : b ≠ a) (column : String) :
    Scope.cell ((a, row) :: scope) b column = scope.cell b column := by
  have hne : (b == a) = false := by simpa using h
  simp [Scope.cell, List.lookup_cons, hne]

@[simp] theorem value_of (name : String) : scope.value a (.of b name) = scope.cell b name := rfl

theorem value_qualified (c : Column) :
    scope.value b (c.qualified a) = scope.cell (c.qualifier.getD a) c.name := rfl

end Scope

namespace Sql.Condition

/-- A statement about conditions holds if it passes from the parts of a condition to the condition. -/
@[elab_as_elim]
theorem induction {motive : Condition → Prop}
    (compare : ∀ column operator v, motive (.compare column operator v))
    (inList : ∀ column values negated, motive (.inList column values negated))
    (isNull : ∀ column negated, motive (.isNull column negated))
    (columnsEqual : ∀ left right, motive (.columnsEqual left right))
    (and : ∀ items, (∀ c ∈ items, motive c) → motive (.and items))
    (or : ∀ items, (∀ c ∈ items, motive c) → motive (.or items))
    (not : ∀ c, motive c → motive (.not c))
    (literal : ∀ truth, motive (.literal truth)) : ∀ c, motive c
  | .compare column operator v => compare column operator v
  | .inList column values negated => inList column values negated
  | .isNull column negated => isNull column negated
  | .columnsEqual left right => columnsEqual left right
  | .and items => and items fun c _ =>
    induction compare inList isNull columnsEqual and or not literal c
  | .or items => or items fun c _ =>
    induction compare inList isNull columnsEqual and or not literal c
  | .not c => not c (induction compare inList isNull columnsEqual and or not literal c)
  | .literal truth => literal truth

mutual

/-- The columns that a condition mentions. -/
def columns : Condition → List Column
  | .compare column _ _ => [column]
  | .inList column _ _ => [column]
  | .isNull column _ => [column]
  | .columnsEqual left right => [left, right]
  | .and items => columnsAll items
  | .or items => columnsAll items
  | .not item => columns item
  | .literal _ => []

/-- The columns that several conditions mention. -/
def columnsAll : List Condition → List Column
  | [] => []
  | item :: rest => columns item ++ columnsAll rest

end

/-- A condition on the columns of one table, none of which is qualified. -/
def Unqualified (c : Condition) : Prop :=
  ∀ column ∈ c.columns, column.qualifier = none

theorem evalAll_eq_map (items : List Condition) : evalAll db value items = items.map (eval db value) := by
  induction items with
  | nil => rfl
  | cons item rest ih => rw [evalAll, ih, List.map_cons]

theorem qualifiedAll_eq_map (items : List Condition) :
    qualifiedAll a items = items.map (qualified a) := by
  induction items with
  | nil => rfl
  | cons item rest ih => rw [qualifiedAll, ih, List.map_cons]

theorem mem_columnsAll {column : Column} {items : List Condition} :
    column ∈ columnsAll items ↔ ∃ item ∈ items, column ∈ item.columns := by
  induction items with
  | nil => simp [columnsAll]
  | cons item rest ih => rw [columnsAll, List.mem_append, ih, List.exists_mem_cons_iff]

/-- The truth of a condition depends on its columns only. -/
theorem eval_congr {value' : Column → Value} {c : Condition}
    (h : ∀ column ∈ c.columns, value column = value' column) : c.eval db value = c.eval db value' := by
  have hall (items : List Condition) (ih : ∀ c ∈ items,
      (∀ column ∈ c.columns, value column = value' column) → c.eval db value = c.eval db value')
      (h : ∀ column ∈ columnsAll items, value column = value' column) :
      evalAll db value items = evalAll db value' items := by
    rw [evalAll_eq_map, evalAll_eq_map]
    refine List.map_congr_left fun c hc => ih c hc fun column hcolumn => ?_
    exact h column (mem_columnsAll.mpr ⟨c, hc, hcolumn⟩)
  induction c using induction with
  | compare column operator v => simp only [eval, h column (by simp [columns])]
  | inList column values negated => simp only [eval, h column (by simp [columns])]
  | isNull column negated => simp only [eval, h column (by simp [columns])]
  | columnsEqual left right =>
    simp only [eval, h left (by simp [columns]), h right (by simp [columns])]
  | and items ih => rw [eval, eval, hall items ih (by simpa only [columns] using h)]
  | or items ih => rw [eval, eval, hall items ih (by simpa only [columns] using h)]
  | not c ih => rw [eval, eval, ih (by simpa only [columns] using h)]
  | literal truth => rfl

/-- To qualify a condition is to look its columns up by their qualified names. -/
theorem eval_qualified (c : Condition) :
    (c.qualified a).eval db value = c.eval db fun column => value (column.qualified a) := by
  have hall (items : List Condition) (ih : ∀ c ∈ items,
      (c.qualified a).eval db value = c.eval db fun column => value (column.qualified a)) :
      evalAll db value (qualifiedAll a items) =
        evalAll db (fun column => value (column.qualified a)) items := by
    rw [evalAll_eq_map, evalAll_eq_map, qualifiedAll_eq_map, List.map_map]
    exact List.map_congr_left ih
  induction c using induction with
  | compare column operator v => simp only [qualified, eval]
  | inList column values negated => simp only [qualified, eval]
  | isNull column negated => simp only [qualified, eval]
  | columnsEqual left right => simp only [qualified, eval]
  | and items ih => rw [qualified, eval, eval, hall items ih]
  | or items ih => rw [qualified, eval, eval, hall items ih]
  | not c ih => rw [qualified, eval, eval, ih]
  | literal truth => rfl

/-- What joins two conditions is their conjunction. -/
theorem eval_both (c c' : Condition) :
    (c.both c').eval db value = Truth.all [c.eval db value, c'.eval db value] := by
  unfold both
  split
  · rw [eval, eval, evalAll_eq_map, evalAll_eq_map, List.map_append, Truth.all_concat]
    rfl
  · rw [eval, evalAll_eq_map]
    rfl

theorem holds_iff {c : Condition} : c.holds db value = true ↔ c.eval db value = some true := by
  simp [holds]

theorem holds_and {items : List Condition} :
    (Condition.and items).holds db value = true ↔ ∀ c ∈ items, c.holds db value = true := by
  simp only [holds_iff, eval, Truth.all_eq_true, evalAll_eq_map, List.mem_map, forall_exists_index,
    and_imp, forall_apply_eq_imp_iff₂]

theorem holds_or {items : List Condition} :
    (Condition.or items).holds db value = true ↔ ∃ c ∈ items, c.holds db value = true := by
  simp only [holds_iff, eval, Truth.any_eq_true, evalAll_eq_map, List.mem_map]

theorem holds_all {items : List Condition} :
    (Condition.all items).holds db value = true ↔ ∀ c ∈ items, c.holds db value = true := by
  unfold Condition.all
  split
  · simp
  · exact holds_and

theorem holds_both {c d : Condition} :
    (c.both d).holds db value = true ↔ c.holds db value = true ∧ d.holds db value = true := by
  unfold Condition.both
  split <;> simp [holds_and, or_imp, forall_and]

end Sql.Condition

namespace Database

variable (db : Database)

/-- Whether a row satisfies a condition on its own columns. -/
def satisfies (row : Tuple) (c : Condition) : Bool :=
  c.holds db fun column => row.cell column.name

/-- Whether two rows agree in each pair of a join. -/
def joined (pairs : JoinPairs) (left right : Tuple) : Bool :=
  pairs.all fun (l, r) => db.compare .equal (left.cell l) (right.cell r) = some true

variable {db}

/-- A condition on the columns of an alias is one on its row. -/
theorem holds_qualified {c : Condition} (hc : c.Unqualified)
    (hrow : ∀ column, scope.cell a column = row.cell column) :
    (c.qualified a).holds db (scope.value b) = db.satisfies row c := by
  rw [satisfies, Condition.holds, Condition.holds, Condition.eval_qualified]
  have heval : c.eval db (fun column => scope.value b (column.qualified a)) =
      c.eval db fun column => row.cell column.name := by
    apply Condition.eval_congr
    intro column hcolumn
    rw [Scope.value_qualified, hc column hcolumn, Option.getD_none, hrow]
  rw [heval]

/-- The pairs of a join are equal where the rows of the two aliases agree in them. -/
theorem holds_pairsEqual {pairs : JoinPairs} {left right : String} {leftRow rightRow : Tuple}
    (hleft : ∀ column ∈ pairs.left, scope.cell left column = leftRow.cell column)
    (hright : ∀ column, scope.cell right column = rightRow.cell column) :
    (pairsEqual pairs left right).holds db (scope.value b) = db.joined pairs leftRow rightRow := by
  rw [Bool.eq_iff_iff, pairsEqual, Condition.holds_all, joined, List.all_eq_true, List.forall_mem_map]
  apply forall₂_congr
  intro pair hpair
  obtain ⟨l, r⟩ := pair
  have hl : l ∈ pairs.left := List.mem_map_of_mem (f := fun pair : String × String => pair.1) hpair
  rw [Condition.holds_iff, Condition.eval, Scope.value_of, Scope.value_of, hleft l hl, hright,
    decide_eq_true_iff]

/-- Of two sequences of values one comes before or with the other. -/
theorem lexLe_total {κ : Type} (db : Database) (keys : List κ) (direction : κ → Direction)
    (f g : κ → Value) : db.lexLe (keys.map fun k => (direction k, f k, g k)) = true ∨
      db.lexLe (keys.map fun k => (direction k, g k, f k)) = true := by
  induction keys with
  | nil => exact .inl rfl
  | cons k rest ih =>
    have htotal := db.le_total (f k) (g k)
    simp only [List.map_cons]
    cases direction k <;> simp only [lexLe, Bool.and_eq_true, Bool.or_eq_true, Bool.not_eq_true'] <;>
      grind

theorem lexLe_trans {κ : Type} {keys : List κ} {direction : κ → Direction} {f g h : κ → Value}
    (hfg : db.lexLe (keys.map fun k => (direction k, f k, g k)) = true)
    (hgh : db.lexLe (keys.map fun k => (direction k, g k, h k)) = true) :
    db.lexLe (keys.map fun k => (direction k, f k, h k)) = true := by
  induction keys with
  | nil => rfl
  | cons k rest ih =>
    have htrans := db.le_trans
    simp only [List.map_cons] at hfg hgh ⊢
    cases hk : direction k <;> simp only [hk, lexLe, Bool.and_eq_true, Bool.or_eq_true,
      Bool.not_eq_true'] at hfg hgh ⊢ <;> grind

/-- Nothing is equal to null. -/
theorem ne_null_of_equal {v w : Value} (h : db.compare .equal v w = some true) :
    v ≠ .null ∧ w ≠ .null := by
  constructor
  · rintro rfl
    simp [(db.compare_null .equal _).1] at h
  · rintro rfl
    simp [(db.compare_null .equal _).2] at h

/-- Nothing agrees with a row that is null where they are joined. -/
theorem joined_eq_false {pairs : JoinPairs} {left right : Tuple} {l : String} (hl : l ∈ pairs.left)
    (hnull : left.cell l = .null) : db.joined pairs left right = false := by
  obtain ⟨pair, hpair, rfl⟩ := List.mem_map.mp hl
  refine List.all_eq_false.mpr ⟨pair, hpair, ?_⟩
  simp only [hnull, (db.compare_null .equal _).1]
  decide

end Database

/-- Columns of an alias that are selected without labels. -/
theorem Sql.Projection.cell_row {columns : List String} {column : String} (own : Scope)
    (h : column ∈ columns) :
    (Projection.tuple b own scope (columns.map fun c => .column (.of a c) none)).cell column =
      scope.cell a column := by
  have hrow : Projection.tuple b own scope (columns.map fun c => .column (.of a c) none) =
      ⟨columns.map fun c => (c, scope.cell a c)⟩ := by
    cases columns with
    | nil => exact absurd h List.not_mem_nil
    | cons first rest =>
      have hcells : ∀ c : String, Projection.cells b scope (.column (.of a c) none) =
          [(c, scope.cell a c)] := fun _ => rfl
      simp only [List.map_cons, Projection.tuple, List.flatMap_cons, hcells, List.flatMap_map,
        List.singleton_append]
      rw [List.map_eq_flatMap]
  rw [hrow, Tuple.cell_map _ h]

/-- Some rows, or a row of nulls if there are none. -/
def padded (nulls : Tuple) : List Tuple → List Tuple
  | [] => [nulls]
  | rows => rows

theorem padded_ne_nil (nulls : Tuple) (rows : List Tuple) : padded nulls rows ≠ [] := by
  cases rows <;> simp [padded]

/-- What is padded is a row of nulls, or one of the rows. -/
theorem mem_padded {nulls : Tuple} {rows : List Tuple} (h : row ∈ padded nulls rows) :
    row = nulls ∨ row ∈ rows := by
  cases rows with
  | nil => exact .inl (List.mem_singleton.mp h)
  | cons => exact .inr h

/-- A left join brings in the rows that match, or nulls. -/
theorem Sql.JoinKind.extend_left (on : Condition) (rows : List Tuple) (nulls : Tuple) :
    JoinKind.left.extend db b a on rows nulls scope =
      (padded nulls (rows.filter fun row =>
        on.holds db (Scope.value ((a, row) :: scope) b))).map fun row => (a, row) :: scope := by
  unfold JoinKind.extend
  simp only [List.filter_map, Function.comp_def]
  cases rows.filter fun row => on.holds db (Scope.value ((a, row) :: scope) b) <;> rfl

/-- An inner join brings in the rows that match. -/
theorem Sql.JoinKind.extend_inner (on : Condition) (rows : List Tuple) (nulls : Tuple) :
    JoinKind.inner.extend db b a on rows nulls scope =
      (rows.filter fun row => on.holds db (Scope.value ((a, row) :: scope) b)).map
        fun row => (a, row) :: scope := by
  unfold JoinKind.extend
  simp only [List.filter_map, Function.comp_def]

@[simp] theorem Sql.JoinTarget.rowsIn_table (table : String) (scope : Scope) :
    (JoinTarget.table table).rowsIn db scope = db.rows table := rfl

@[simp] theorem Sql.JoinTarget.rowsIn_lateral (query : Select) (scope : Scope) :
    (JoinTarget.lateral query).rowsIn db scope = query.rowsIn db scope := rfl

theorem Sql.Join.extendAll_cons (kind : JoinKind) (target : JoinTarget) (on : Condition)
    (rest : List Join) (scope : Scope) : Join.extendAll db b (⟨kind, target, a, on⟩ :: rest) scope =
      (kind.extend db b a on (target.rowsIn db scope) (.nulls (target.columns db)) scope).flatMap
        (Join.extendAll db b rest) := rfl

/-- A join alone. -/
theorem Sql.Join.extendAll_singleton (kind : JoinKind) (target : JoinTarget) (on : Condition)
    (scope : Scope) : Join.extendAll db b [⟨kind, target, a, on⟩] scope =
      kind.extend db b a on (target.rowsIn db scope) (.nulls (target.columns db)) scope :=
  List.flatMap_singleton' _

/-- Joins are brought in one after the other. -/
theorem Sql.Join.extendAll_append (first second : List Join) (scope : Scope) :
    Join.extendAll db a (first ++ second) scope =
      (Join.extendAll db a first scope).flatMap (Join.extendAll db a second) := by
  induction first generalizing scope with
  | nil => simp [Join.extendAll]
  | cons join rest ih =>
    obtain ⟨kind, target, tableAlias, on⟩ := join
    simp only [List.cons_append, Join.extendAll, List.flatMap_assoc]
    exact List.flatMap_congr fun scope _ => ih scope

/-- Joining brings rows in on top of what is joined so far. -/
theorem Sql.JoinKind.exists_of_mem_extend {kind : JoinKind} {on : Condition} {rows : List Tuple}
    {nulls : Tuple} {scope' : Scope} (h : scope' ∈ kind.extend db b a on rows nulls scope) :
    ∃ row, scope' = (a, row) :: scope := by
  cases kind with
  | inner =>
    rw [extend_inner] at h
    obtain ⟨row, -, rfl⟩ := List.mem_map.mp h
    exact ⟨row, rfl⟩
  | left =>
    rw [extend_left] at h
    obtain ⟨row, -, rfl⟩ := List.mem_map.mp h
    exact ⟨row, rfl⟩

/-- Joins leave the rows of other aliases as they are. -/
theorem Sql.Join.cell_of_mem_extendAll {joins : List Join} {scope' : Scope} {other : String}
    (hother : other ∉ joins.map (·.tableAlias)) (h : scope' ∈ Join.extendAll db a joins scope)
    (column : String) : scope'.cell other column = scope.cell other column := by
  induction joins generalizing scope with
  | nil =>
    obtain rfl := List.mem_singleton.mp h
    rfl
  | cons join rest ih =>
    obtain ⟨kind, target, tableAlias, on⟩ := join
    rw [List.map_cons, List.mem_cons, not_or] at hother
    obtain ⟨scope₁, hscope₁, h⟩ := List.mem_flatMap.mp h
    obtain ⟨row, rfl⟩ := JoinKind.exists_of_mem_extend hscope₁
    rw [ih hother.2 h, Scope.cell_cons_of_ne hother.1]

/-- Left joins keep every scope. -/
theorem Sql.Join.extendAll_ne_nil {joins : List Join} (h : ∀ join ∈ joins, join.kind = .left)
    (scope : Scope) : Join.extendAll db a joins scope ≠ [] := by
  induction joins generalizing scope with
  | nil => exact List.cons_ne_nil _ _
  | cons join rest ih =>
    obtain ⟨kind, target, tableAlias, on⟩ := join
    obtain rfl : kind = .left := h _ List.mem_cons_self
    have hrest := ih fun join hjoin => h join (List.mem_cons_of_mem _ hjoin)
    obtain ⟨row, hrow⟩ := List.exists_mem_of_ne_nil _ (padded_ne_nil (.nulls (target.columns db))
      ((target.rowsIn db scope).filter fun row => on.holds db (Scope.value ((tableAlias, row) :: scope) a)))
    obtain ⟨scope', hscope'⟩ := List.exists_mem_of_ne_nil _ (hrest ((tableAlias, row) :: scope))
    refine List.ne_nil_of_mem (List.mem_flatMap.mpr ⟨_, ?_, hscope'⟩)
    rw [JoinKind.extend_left]
    exact List.mem_map_of_mem hrow

theorem page_map {α β : Type} (f : α → β) (limit offset : Option Nat) (l : List α) :
    page limit offset (l.map f) = (page limit offset l).map f := by
  cases limit with
  | none => simp [page, List.map_drop]
  | some n => simp [page, List.map_drop, List.map_take]

theorem page_sublist {α : Type} (limit offset : Option Nat) (l : List α) :
    (page limit offset l).Sublist l := by
  cases limit with
  | none => exact List.drop_sublist ..
  | some n => exact (List.take_sublist ..).trans (List.drop_sublist ..)

theorem page_subset {α : Type} (limit offset : Option Nat) (l : List α) : page limit offset l ⊆ l :=
  (page_sublist limit offset l).subset

section Sorting

variable {α : Type} {r : α → α → Prop} [DecidableRel r]

/-- An element that comes before all others is put first. -/
theorem orderedInsert_of_forall {x : α} {l : List α} (h : ∀ y ∈ l, r x y) :
    l.orderedInsert r x = x :: l := by
  cases l with
  | nil => rfl
  | cons y rest => rw [List.orderedInsert_cons_of_le r rest (h y List.mem_cons_self)]

/-- Picking from a sorted list commutes with inserting. -/
private theorem filter_orderedInsert [IsTrans α r] {p : α → Bool} {x : α} {l : List α}
    (hl : l.Pairwise r) :
    (l.orderedInsert r x).filter p =
      if p x then (l.filter p).orderedInsert r x else l.filter p := by
  induction l with
  | nil => by_cases hx : p x <;> simp [hx]
  | cons y rest ih =>
    obtain ⟨hy, hrest⟩ := List.pairwise_cons.mp hl
    by_cases hxy : r x y
    · have hall : ∀ z ∈ (y :: rest).filter p, r x z := by
        intro z hz
        rcases List.mem_cons.mp (List.mem_filter.mp hz).1 with rfl | hz
        · exact hxy
        · exact IsTrans.trans _ _ _ hxy (hy z hz)
      rw [List.orderedInsert_cons_of_le r rest hxy, orderedInsert_of_forall hall, List.filter_cons]
    · rw [List.orderedInsert_of_not_le r rest hxy, List.filter_cons, List.filter_cons, ih hrest]
      by_cases hpy : p y <;> by_cases hpx : p x <;>
        simp [hpy, hpx, List.orderedInsert_of_not_le r _ hxy]

/-- Picking from a list commutes with sorting it. -/
theorem filter_insertionSort [IsTrans α r] [Std.Total r] (p : α → Bool) (l : List α) :
    (l.insertionSort r).filter p = (l.filter p).insertionSort r := by
  induction l with
  | nil => rfl
  | cons x rest ih =>
    rw [List.insertionSort_cons, filter_orderedInsert (List.pairwise_insertionSort r rest), ih,
      List.filter_cons]
    split <;> rfl

/-- Sorting by no criterion leaves a list as it is. -/
theorem insertionSort_of_forall (h : ∀ x y, r x y) (l : List α) : l.insertionSort r = l := by
  induction l with
  | nil => rfl
  | cons x rest ih => rw [List.insertionSort_cons, ih, orderedInsert_of_forall fun y _ => h x y]

end Sorting

end EagerLoad
