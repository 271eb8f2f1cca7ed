import EagerLoad.Proofs.Sql.Layout

/-!
# Normal forms

What the text of a statement does not tell apart: whether a column of the statement's own alias is
qualified, whether a null test was a comparison, which empty list stands for a truth value, and whether
an expression stands in a group of its own. The normal form of a statement settles these and nothing
else, and is written like the statement.
-/

namespace EagerLoad.Sql

namespace Condition

/-- The disjunction of conditions; a single one stands for itself. -/
def any : List Condition → Condition
  | [item] => item
  | items => .or items

mutual

/-- Equality with null as a null test, empty lists as truth values and a group of one as its item. -/
def tidied : Condition → Condition
  | .compare column operator value =>
    match operator, value.isNull with
    | .equal, true => .isNull column false
    | .notEqual, true => .isNull column true
    | _, _ => .compare column operator value
  | .inList _ [] negated => .literal negated
  | .inList column values negated => .inList column values negated
  | .isNull column negated => .isNull column negated
  | .columnsEqual left right => .columnsEqual left right
  | .and [] => .literal true
  | .and items => all (tidiedAll items)
  | .or [] => .literal false
  | .or items => any (tidiedAll items)
  | .not item => .not item.tidied
  | .literal value => .literal value

/-- Several conditions, each tidied. -/
def tidiedAll : List Condition → List Condition
  | [] => []
  | item :: rest => item.tidied :: tidiedAll rest

end

/-- The normal form of a condition whose unqualified columns belong to an alias. -/
def normal (tableAlias : String) (c : Condition) : Condition :=
  (c.qualified tableAlias).tidied

end Condition

/-- A projection whose unqualified column belongs to an alias. -/
def Projection.qualified (tableAlias : String) : Projection → Projection
  | .column c label => .column (c.qualified tableAlias) label
  | .everything other => .everything other

mutual

/-- The normal form of a statement: unqualified columns belong to the alias of the statement itself. -/
def Select.normal : Select → Select
  | ⟨source, projections, joins, conditions, ordering, limit, offset⟩ =>
    let a := source.tableAlias
    ⟨source.normal, projections.map (·.qualified a), Join.normalAll a joins,
      conditions.map (·.normal a), ordering.map fun (column, direction) => (column.qualified a, direction),
      limit, offset⟩

/-- The normal form of what a statement reads from. -/
def Source.normal : Source → Source
  | .table table tableAlias => .table table tableAlias
  | .derived query tableAlias => .derived query.normal tableAlias

/-- The normal forms of the joins of a statement. -/
def Join.normalAll (scope : String) : List Join → List Join
  | [] => []
  | ⟨kind, target, tableAlias, on⟩ :: rest =>
    ⟨kind, target.normal, tableAlias, on.normal scope⟩ :: Join.normalAll scope rest

/-- The normal form of what a join brings in. -/
def JoinTarget.normal : JoinTarget → JoinTarget
  | .table table => .table table
  | .lateral query => .lateral query.normal

end

section Written

variable {scope : Option String} {a : String}

@[simp] theorem Column.pieces_qualified (c : Column) :
    (c.qualified a).pieces scope = c.pieces (some a) := by
  obtain ⟨qualifier, name⟩ := c
  cases qualifier <;> rfl

namespace Condition

theorem tidiedAll_eq_map (items : List Condition) : tidiedAll items = items.map tidied := by
  induction items with
  | nil => rfl
  | cons item rest ih => rw [tidiedAll, ih, List.map_cons]

/-- The normal form of a conjunction. -/
theorem normal_and (item : Condition) (rest : List Condition) :
    (Condition.and (item :: rest)).normal a = all ((item :: rest).map (normal a)) := by
  rw [normal, qualified, qualifiedAll_eq_map, List.map_cons, tidied, tidiedAll_eq_map, ← List.map_cons,
    List.map_map]
  · rfl
  · simp

/-- The normal form of a disjunction. -/
theorem normal_or (item : Condition) (rest : List Condition) :
    (Condition.or (item :: rest)).normal a = any ((item :: rest).map (normal a)) := by
  rw [normal, qualified, qualifiedAll_eq_map, List.map_cons, tidied, tidiedAll_eq_map, ← List.map_cons,
    List.map_map]
  · rfl
  · simp

theorem pieces_all (item : Condition) (rest : List Condition) :
    (all (item :: rest)).pieces scope = group " AND " true ((item :: rest).map (pieces scope)) := by
  cases rest with
  | nil => rfl
  | cons other rest => rw [all, pieces, piecesAll_eq_map]; simp

theorem pieces_any (item : Condition) (rest : List Condition) :
    (any (item :: rest)).pieces scope = group " OR " false ((item :: rest).map (pieces scope)) := by
  cases rest with
  | nil => rfl
  | cons other rest => rw [any, pieces, piecesAll_eq_map]; simp

/-- A condition in normal form is written like the condition. -/
@[simp] theorem pieces_normal (c : Condition) : (c.normal a).pieces scope = c.pieces (some a) := by
  induction c using induction with
  | compare column operator v =>
    rw [normal, qualified]
    cases hnull : v.isNull <;> cases operator <;> simp [tidied, pieces, hnull]
  | inList column values negated =>
    cases values with
    | nil => rfl
    | cons value rest => simp [normal, qualified, tidied, pieces]
  | isNull column negated => simp [normal, qualified, tidied, pieces]
  | columnsEqual left right => simp [normal, qualified, tidied, pieces]
  | and items ih =>
    cases items with
    | nil => rfl
    | cons item rest =>
      rw [normal_and, List.map_cons, pieces_all, pieces, piecesAll_eq_map, ← List.map_cons, List.map_map]
      exact congrArg _ (List.map_congr_left ih)
  | or items ih =>
    cases items with
    | nil => rfl
    | cons item rest =>
      rw [normal_or, List.map_cons, pieces_any, pieces, piecesAll_eq_map, ← List.map_cons, List.map_map]
      exact congrArg _ (List.map_congr_left ih)
  | not c ih =>
    change Piece.text "NOT (" :: (c.normal a).pieces scope ++ [Piece.text ")"] = _
    rw [ih, pieces]
  | literal truth => rfl

/-- A condition whose columns are qualified is written as the condition itself is where unqualified columns
belong to the alias, whatever they belong to where it is written now. -/
@[simp] theorem pieces_qualified (c : Condition) : (c.qualified a).pieces scope = c.pieces (some a) := by
  induction c using induction with
  | compare column operator v => simp [qualified, pieces]
  | inList column values negated =>
    cases values with
    | nil => rfl
    | cons value rest => simp [qualified, pieces]
  | isNull column negated => simp [qualified, pieces]
  | columnsEqual left right => simp [qualified, pieces]
  | and items ih =>
    rw [qualified, pieces, pieces, piecesAll_eq_map, piecesAll_eq_map, qualifiedAll_eq_map, List.map_map]
    exact congrArg _ (List.map_congr_left ih)
  | or items ih =>
    rw [qualified, pieces, pieces, piecesAll_eq_map, piecesAll_eq_map, qualifiedAll_eq_map, List.map_map]
    exact congrArg _ (List.map_congr_left ih)
  | not c ih => rw [qualified, pieces, pieces, ih]
  | literal truth => rfl

section Meaning

variable {db : Database} {value : Column → Value}

/-- The conditions of a list as one conjunction. -/
theorem eval_all (items : List Condition) :
    (all items).eval db value = Truth.all (items.map (eval db value)) := by
  unfold all
  split
  · rw [List.map_singleton, Truth.all_singleton]
  · rw [eval, evalAll_eq_map]

/-- The conditions of a list as one disjunction. -/
theorem eval_any (items : List Condition) :
    (any items).eval db value = Truth.any (items.map (eval db value)) := by
  unfold any
  split
  · rw [List.map_singleton, Truth.any_singleton]
  · rw [eval, evalAll_eq_map]

/-- A condition that is tidied has the same truth, also where that is unknown. -/
theorem eval_tidied (c : Condition) : c.tidied.eval db value = c.eval db value := by
  induction c using induction with
  | compare column operator v =>
    cases hnull : v.isNull <;> cases operator <;> simp [tidied, eval, hnull]
  | inList column values negated =>
    cases values with
    | nil => cases negated <;> rfl
    | cons value rest => simp [tidied]
  | isNull column negated => rfl
  | columnsEqual left right => rfl
  | and items ih =>
    cases items with
    | nil => rfl
    | cons item rest =>
      rw [tidied, tidiedAll_eq_map, eval_all, eval, evalAll_eq_map, List.map_map]
      · exact congrArg _ (List.map_congr_left ih)
      · simp
  | or items ih =>
    cases items with
    | nil => rfl
    | cons item rest =>
      rw [tidied, tidiedAll_eq_map, eval_any, eval, evalAll_eq_map, List.map_map]
      · exact congrArg _ (List.map_congr_left ih)
      · simp
  | not c ih => rw [tidied, eval, eval, ih]
  | literal truth => rfl

/-- The normal form of a condition means the same where it is written. -/
theorem eval_normal (c : Condition) (scope : Scope) :
    (c.normal a).eval db (scope.value a) = c.eval db (scope.value a) := by
  rw [normal, eval_tidied, eval_qualified]
  rfl

end Meaning

end Condition

theorem wherePieces_qualified (conditions : List Condition) :
    wherePieces scope (Condition.qualifiedAll a conditions) = wherePieces (some a) conditions := by
  cases conditions with
  | nil => rfl
  | cons c rest =>
    rw [Condition.qualifiedAll_eq_map, List.map_cons, wherePieces, wherePieces, Condition.piecesAll_eq_map,
      Condition.piecesAll_eq_map]
    · simp [Function.comp_def]
    · simp
    · simp

theorem wherePieces_normal (conditions : List Condition) :
    wherePieces scope (conditions.map (·.normal a)) = wherePieces (some a) conditions := by
  cases conditions with
  | nil => rfl
  | cons c rest =>
    rw [List.map_cons, wherePieces, wherePieces, Condition.piecesAll_eq_map, Condition.piecesAll_eq_map]
    · simp [Function.comp_def]
    · simp
    · simp

theorem orderPieces_qualified (ordering : List (Column × Direction)) :
    orderPieces scope (ordering.map fun (column, direction) => (column.qualified a, direction)) =
      orderPieces (some a) ordering := by
  cases ordering with
  | nil => rfl
  | cons key rest =>
    rw [List.map_cons, orderPieces, orderPieces]
    · simp [Function.comp_def]
    · simp
    · simp

theorem Projection.pieces_qualified (p : Projection) :
    (p.qualified a).pieces scope = p.pieces (some a) := by
  cases p with
  | column c label => cases label <;> simp [qualified, pieces]
  | everything other => rfl

theorem Projection.listPieces_qualified (projections : List Projection) :
    Projection.listPieces scope (projections.map (·.qualified a)) =
      Projection.listPieces (some a) projections := by
  cases projections with
  | nil => rfl
  | cons p rest =>
    rw [List.map_cons, listPieces, listPieces]
    · simp [Function.comp_def, pieces_qualified]
    · simp
    · simp

end Written

namespace Select

theorem joins_normal {a : String} {joins : List Join}
    (h : ∀ j ∈ joins, ∀ q ∈ j.target.nested, q.normal.pieces = q.pieces) :
    Join.listPieces (some a) (Join.normalAll a joins) = Join.listPieces (some a) joins := by
  induction joins with
  | nil => rfl
  | cons j rest ih =>
    obtain ⟨kind, target, tableAlias, on⟩ := j
    have htarget : target.normal.pieces = target.pieces := by
      cases target with
      | table table => rfl
      | lateral query =>
        rw [JoinTarget.normal, JoinTarget.pieces, JoinTarget.pieces,
          h _ List.mem_cons_self query List.mem_cons_self]
    rw [Join.normalAll, Join.listPieces, Join.listPieces, htarget, Condition.pieces_normal,
      ih fun j hj => h j (List.mem_cons_of_mem _ hj)]

theorem tableAlias_normal (source : Source) : source.normal.tableAlias = source.tableAlias := by
  cases source <;> rfl

/-- A statement in normal form is written like the statement. -/
theorem pieces_normal (s : Select) : s.normal.pieces = s.pieces := by
  induction s using Select.induction with
  | nest s ih =>
    obtain ⟨source, projections, joins, conditions, ordering, limit, offset⟩ := s
    have hsource : source.normal.pieces = source.pieces := by
      cases source with
      | table table tableAlias => rfl
      | derived query tableAlias =>
        rw [Source.normal, Source.pieces, Source.pieces,
          ih query (List.mem_append_left _ List.mem_cons_self)]
    have hjoins := joins_normal (a := source.tableAlias) fun j hj q hq =>
      ih q (List.mem_append_right _ (List.mem_flatMap.mpr ⟨j, hj, hq⟩))
    simp only [normal, pieces, tableAlias_normal, Projection.listPieces_qualified, hsource,
      wherePieces_normal, orderPieces_qualified, hjoins]

end Select

end EagerLoad.Sql
