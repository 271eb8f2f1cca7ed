import EagerLoad.Proofs.Sql.Normal

/-!
# Reading statements back

A statement is read from its text and parameters. Its lexemes are grouped by parentheses, and what stands
between two of these is read when they close, as an expression, as a list of values or as a statement. In
an expression `NOT` binds before `AND`, and `AND` before `OR`. Clauses are told apart by their keywords.
-/

namespace EagerLoad.Sql

/-- A lexeme, or what stands between two parentheses: each way in which it can be read. -/
inductive Item where
  | token (l : Lexeme)
  | group (condition : Option Condition) (values : Option (List Value)) (query : Option Select)

namespace Item

/-- Whether the item is a certain keyword. -/
def isWord (keyword : String) : Item → Bool
  | .token (.word text) => text = keyword
  | _ => false

/-- Whether the item is a comma. -/
def isComma : Item → Bool
  | .token (.mark c) => c = ','
  | _ => false

/-- The keywords with which clauses start. -/
def clauseWords : List String :=
  ["SELECT", "FROM", "INNER", "LEFT", "WHERE", "ORDER", "LIMIT", "OFFSET"]

/-- The clause that the item starts. -/
def clause? : Item → Option String
  | .token (.word text) => if text ∈ clauseWords then some text else none
  | _ => none

end Item

/-- Read every item of a list, if each can be read. -/
def readEach {α β : Type} (read : α → Option β) : List α → Option (List β)
  | [] => some []
  | a :: rest => do
    let b ← read a
    let bs ← readEach read rest
    return b :: bs

/-- The operator of a comparison. -/
def Lexeme.comparison? : Lexeme → Option Comparison
  | .operator "=" => some .equal
  | .operator "!=" => some .notEqual
  | .operator ">" => some .greater
  | .operator ">=" => some .greaterOrEqual
  | .operator "<" => some .less
  | .operator "<=" => some .lessOrEqual
  | .word "LIKE" => some .like
  | .word "ILIKE" => some .ilike
  | _ => none

/-- A qualified column at the front, and what follows it. -/
def readColumn : List Item → Option (Column × List Item)
  | .token (.name a) :: .token (.mark '.') :: .token (.name c) :: rest => some (.of a c, rest)
  | _ => none

/-- What an expression says about its column. -/
def readPredicate (column : Column) : List Item → Option Condition
  | [.token (.word "IS"), .token (.word "NULL")] => some (.isNull column false)
  | [.token (.word "IS"), .token (.word "NOT"), .token (.word "NULL")] => some (.isNull column true)
  | [.token (.word "IN"), .group _ (some values) _] => some (.inList column values false)
  | [.token (.word "NOT"), .token (.word "IN"), .group _ (some values) _] =>
    some (.inList column values true)
  | [.token (.operator "="), .token (.name a), .token (.mark '.'), .token (.name c)] =>
    some (.columnsEqual column (.of a c))
  | [.token l, .token (.value v)] => l.comparison?.map fun operator => .compare column operator v
  | [.token l, .token (.word "NULL")] => l.comparison?.map fun operator => .compare column operator .null
  | _ => none

/-- An expression without `NOT`, `AND` and `OR`, or one between parentheses. -/
def readAtom : List Item → Option Condition
  | [.group (some condition) _ _] => some condition
  | [.token (.word "TRUE")] => some (.literal true)
  | [.token (.word "FALSE")] => some (.literal false)
  | items => do
    let (column, rest) ← readColumn items
    readPredicate column rest

/-- An expression without `AND` and `OR`. -/
def readFactor : List Item → Option Condition
  | .token (.word "NOT") :: rest => (readFactor rest).map .not
  | items => readAtom items

/-- Expressions with `AND` between them. -/
def readFactors (items : List Item) : Option (List Condition) :=
  readEach readFactor (items.splitOnP (·.isWord "AND"))

/-- An expression. -/
def readCondition (items : List Item) : Option Condition :=
  (readEach (fun branch => (readFactors branch).map Condition.all)
    (items.splitOnP (·.isWord "OR"))).map Condition.any

/-- The conditions of a statement: a conjunction at the top is a list of them. -/
def readConditions (items : List Item) : Option (List Condition) :=
  match items.splitOnP (·.isWord "OR") with
  | [conjunction] => readFactors conjunction
  | _ => (readCondition items).map fun condition => [condition]

/-- A value, or a null. -/
def readValue : List Item → Option Value
  | [.token (.value v)] => some v
  | [.token (.word "NULL")] => some .null
  | _ => none

/-- Values with commas between them. -/
def readValues (items : List Item) : Option (List Value) :=
  readEach readValue (items.splitOnP Item.isComma)

/-- A selected expression. -/
def readProjection : List Item → Option Projection
  | [.token (.name a), .token (.mark '.'), .token (.mark '*')] => some (.everything a)
  | items => do
    match ← readColumn items with
    | (column, []) => return .column column none
    | (column, [.token (.word "AS"), .token (.name label)]) => return .column column (some label)
    | _ => none

/-- Selected expressions with commas between them, or a star. -/
def readProjections : List Item → Option (List Projection)
  | [.token (.mark '*')] => some []
  | items => readEach readProjection (items.splitOnP Item.isComma)

/-- What a statement reads from. -/
def readSource : List Item → Option Source
  | [.token (.name table), .token (.word "AS"), .token (.name a)] => some (.table table a)
  | [.group _ _ (some query), .token (.word "AS"), .token (.name a)] => some (.derived query a)
  | _ => none

/-- A join behind the first word of its kind. -/
def readJoin (kind : JoinKind) : List Item → Option Join
  | .token (.word "JOIN") :: .token (.name table) :: .token (.word "AS") :: .token (.name a) ::
      .token (.word "ON") :: on => (readCondition on).map fun on => ⟨kind, .table table, a, on⟩
  | .token (.word "JOIN") :: .token (.word "LATERAL") :: .group _ _ (some query) ::
      .token (.word "AS") :: .token (.name a) :: .token (.word "ON") :: on =>
    (readCondition on).map fun on => ⟨kind, .lateral query, a, on⟩
  | _ => none

/-- A column to order by, with its direction. -/
def readSortKey (items : List Item) : Option (Column × Direction) := do
  match ← readColumn items with
  | (column, [.token (.word "ASC")]) => return (column, .ascending)
  | (column, [.token (.word "DESC")]) => return (column, .descending)
  | _ => none

/-- An ordering behind the first word of its clause. -/
def readOrdering : List Item → Option (List (Column × Direction))
  | .token (.word "BY") :: rest => readEach readSortKey (rest.splitOnP Item.isComma)
  | _ => none

/-- A number. -/
def readNumber : List Item → Option Nat
  | [.token (.word text)] => text.toNat?
  | _ => none

/-- The items before the first clause, and for each clause its keyword with what follows. -/
def clauses : List Item → List Item × List (String × List Item)
  | [] => ([], [])
  | item :: rest =>
    let later := clauses rest
    match item.clause? with
    | some keyword => ([], (keyword, later.1) :: later.2)
    | none => (item :: later.1, later.2)

/-- The kind of the join that a clause is. -/
def joinClause? : String × List Item → Option (JoinKind × List Item)
  | ("INNER", items) => some (.inner, items)
  | ("LEFT", items) => some (.left, items)
  | _ => none

/-- What a clause says, or a default where a statement does not have it. -/
def readClause {α : Type} (read : List Item → Option α) (default : α) : Option (List Item) → Option α
  | some items => read items
  | none => some default

/-- A number, for clauses that a statement may lack. -/
def readBound (items : List Item) : Option (Option Nat) :=
  (readNumber items).map some

/-- A statement. -/
def readSelect (items : List Item) : Option Select := do
  let found := (clauses items).2
  let projections ← readProjections (← found.lookup "SELECT")
  let source ← readSource (← found.lookup "FROM")
  let joins ← readEach (fun clause => readJoin clause.1 clause.2) (found.filterMap joinClause?)
  let conditions ← readClause readConditions [] (found.lookup "WHERE")
  let ordering ← readClause readOrdering [] (found.lookup "ORDER")
  let limit ← readClause readBound none (found.lookup "LIMIT")
  let offset ← readClause readBound none (found.lookup "OFFSET")
  return ⟨source, projections, joins, conditions, ordering, limit, offset⟩

/-- What is read of a text: the items of the innermost open parenthesis, and of those around it. The last
item comes first. -/
abbrev Nesting := List Item × List (List Item)

/-- Read one more lexeme. -/
def Nesting.step : Nesting → Lexeme → Nesting
  | (items, outer), .mark '(' => ([], items :: outer)
  | (items, around :: outer), .mark ')' =>
    let content := items.reverse
    (.group (readCondition content) (readValues content) (readSelect content) :: around, outer)
  | (items, outer), l => (.token l :: items, outer)

/-- Read lexemes. -/
def Nesting.run (n : Nesting) (ls : List Lexeme) : Nesting :=
  ls.foldl step n

/-- The statement of a text with its parameters. -/
def Select.read (q : Query) : Option Select :=
  match Nesting.run ([], []) ((lexemes q.sql).map (Lexeme.bind q.params)) with
  | (items, []) => readSelect items.reverse
  | _ => none

end EagerLoad.Sql
