import EagerLoad.Sql.Column

/-!
# Conditions

Boolean expressions over columns, for `WHERE` and `ON`. Comparing a column with null by equality is
written as a null test, an empty list of candidates and an empty group are written as truth values,
and a group of one is written without parentheses.
-/

namespace EagerLoad.Sql

/-- How a column is compared with a value. -/
inductive Comparison where
  | equal
  | notEqual
  | greater
  | greaterOrEqual
  | less
  | lessOrEqual
  | like
  /-- Pattern match without regard to case. -/
  | ilike
deriving DecidableEq

/-- The operator of a comparison. -/
def Comparison.symbol : Comparison → String
  | .equal => "="
  | .notEqual => "!="
  | .greater => ">"
  | .greaterOrEqual => ">="
  | .less => "<"
  | .lessOrEqual => "<="
  | .like => "LIKE"
  | .ilike => "ILIKE"

/-- A boolean expression over columns. -/
inductive Condition where
  | compare (column : Column) (operator : Comparison) (value : Value)
  | inList (column : Column) (values : List Value) (negated : Bool)
  | isNull (column : Column) (negated : Bool)
  | columnsEqual (left right : Column)
  | and (items : List Condition)
  | or (items : List Condition)
  | not (item : Condition)
  | literal (value : Bool)

namespace Condition

instance : Inhabited Condition := ⟨.literal true⟩

/-- The conjunction of conditions; a single one stands for itself. -/
def all : List Condition → Condition
  | [item] => item
  | items => .and items

/-- Both conditions. A conjunction on the left takes the right one in as its last item. -/
def both : Condition → Condition → Condition
  | .and items, right => .and (items ++ [right])
  | left, right => .and [left, right]

/-- Either condition. A disjunction on the left takes the right one in as its last item. -/
def either : Condition → Condition → Condition
  | .or items, right => .or (items ++ [right])
  | left, right => .or [left, right]

mutual

/-- Qualify every unqualified column with `alias`. -/
def qualified (tableAlias : String) : Condition → Condition
  | .compare column operator value => .compare (column.qualified tableAlias) operator value
  | .inList column values negated => .inList (column.qualified tableAlias) values negated
  | .isNull column negated => .isNull (column.qualified tableAlias) negated
  | .columnsEqual left right =>
    .columnsEqual (left.qualified tableAlias) (right.qualified tableAlias)
  | .and items => .and (qualifiedAll tableAlias items)
  | .or items => .or (qualifiedAll tableAlias items)
  | .not item => .not (item.qualified tableAlias)
  | .literal value => .literal value

/-- Qualify every unqualified column of several conditions. -/
def qualifiedAll (tableAlias : String) : List Condition → List Condition
  | [] => []
  | item :: rest => item.qualified tableAlias :: qualifiedAll tableAlias rest

end

/-- The keyword of a truth value. -/
def truth (value : Bool) : String :=
  if value then "TRUE" else "FALSE"

/-- Items of a group between parentheses; none stand for `neutral`, one for itself. -/
def group (separator : String) (neutral : Bool) : List (List Piece) → List Piece
  | [] => [.text (truth neutral)]
  | [single] => single
  | items => .text "(" :: separated separator items ++ [.text ")"]

mutual

/-- The condition as written where unqualified columns belong to `scope`. -/
def pieces (scope : Option String) : Condition → List Piece
  | .compare column operator value =>
    column.pieces scope ++ match operator, value.isNull with
      | .equal, true => [.text " IS NULL"]
      | .notEqual, true => [.text " IS NOT NULL"]
      | _, _ => [.text (" " ++ operator.symbol ++ " "), .param value]
  | .inList _ [] negated => [.text (truth negated)]
  | .inList column values negated =>
    column.pieces scope ++ .text (if negated then " NOT IN (" else " IN (")
      :: separated ", " (values.map fun value => [.param value]) ++ [.text ")"]
  | .isNull column negated =>
    column.pieces scope ++ [.text (if negated then " IS NOT NULL" else " IS NULL")]
  | .columnsEqual left right => left.pieces scope ++ .text " = " :: right.pieces scope
  | .and items => group " AND " true (piecesAll scope items)
  | .or items => group " OR " false (piecesAll scope items)
  | .not item => .text "NOT (" :: item.pieces scope ++ [.text ")"]
  | .literal value => [.text (truth value)]

/-- Several conditions, each as written. -/
def piecesAll (scope : Option String) : List Condition → List (List Piece)
  | [] => []
  | item :: rest => item.pieces scope :: piecesAll scope rest

end

end Condition

/-- The pieces of a `WHERE` clause over conditions that must all hold; none without conditions. -/
def wherePieces (scope : Option String) : List Condition → List Piece
  | [] => []
  | conditions => .text " WHERE " :: separated " AND " (Condition.piecesAll scope conditions)

end EagerLoad.Sql
