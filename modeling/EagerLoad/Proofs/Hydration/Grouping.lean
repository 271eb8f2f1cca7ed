import EagerLoad.Hydration.Batch
import EagerLoad.Proofs.Plan.Tree
import Mathlib.Data.List.Induction

/-!
# Nested grouping of rows

What hydration is meant to make of the rows that come back, by recursion over the tree of the plan. Rows
are grouped by the key of a node. Each group is one record: its columns are those of the first row, its
joined children are made of the rows of the group, and its batched children of the rows of the batch that
link to it.
-/

namespace EagerLoad

/-- The value that a row has for a label, null if it has none. -/
def Row.cell (row : Row) (label : String) : Value :=
  match row.named label with
  | .ok v => v
  | .error _ => .null

namespace Node

variable (n : Node)

/-- The identity of the key that a row has for a node; none if the key is null. -/
def key? (row : Row) : Option String :=
  let key := row.cell (n.label n.primaryKey)
  if key.isNull then none else some key.identity

/-- The columns of a node in a row. -/
def values (row : Row) : KeyMap Value :=
  .ofList (n.columns.map fun column => (column, row.cell (n.label column)))

/-- The distinct keys of rows, in the order in which they are first seen. -/
def keys (rows : List Row) : List String :=
  (rows.filterMap n.key?).eraseDups

/-- The rows of a key. -/
def rowsOf (key : String) (rows : List Row) : List Row :=
  rows.filter fun row => n.key? row = some key

/-- The rows of each key. -/
def groups (rows : List Row) : List (List Row) :=
  (n.keys rows).map fun key => n.rowsOf key rows

/-- The columns of a node in the first of some rows. -/
def firstValues : List Row → KeyMap Value
  | [] => .empty
  | row :: _ => n.values row

end Node

/-- The identities of the components of a key. -/
def identities (key : List Value) : List String :=
  key.map Value.identity

/-- A key is complete if its first column has a value other than null and the rest of it is complete. -/
theorem completeKey_cons (values : KeyMap Value) (column : String) (rest : List String) :
    completeKey values (column :: rest) =
      ((values.get? column).filter fun v => !v.isNull).bind fun v =>
        (completeKey values rest).bind fun key => some (v :: key) := by
  rw [completeKey, List.mapM_cons]
  rfl

namespace Batch

variable (b : Batch)

/-- The identities of the columns by which a row of a batch links to records. -/
def linkOf (row : Row) : List String :=
  identities (b.linkLabels.map row.cell)

/-- The rows of a batch that link to a record with these values. None do if the key is incomplete. -/
def linked (values : KeyMap Value) (rows : List Row) : List Row :=
  match completeKey values b.parentColumns with
  | some key => rows.filter fun row => b.linkOf row = identities key
  | none => []

end Batch

/-- The entry for the records of a child: the first one or null, or all of them. -/
def Cardinality.entry : Cardinality → List Json → Json
  | .one, loaded => loaded.head?.getD .null
  | .many, loaded => .arr loaded

namespace Plan

variable (p : Plan) (answers : Nat → List Row)

/-- The rows for a child of the record that some rows make. -/
def rowsBelow (n : Node) (own : List Row) (child : Node) : List Row :=
  if child.source = n.source then own
  else match child.source with
    | .primary => []
    | .batch i => match p.batches[i]? with
      | some b => b.linked (n.firstValues own) (answers i)
      | none => []

mutual

/-- The records that rows make for a node, as nested JSON objects; `answers i` are the rows of batch
`i`. -/
def nest : LoadTree → List Row → List Json
  | .node n children => fun rows => (n.groups rows).map fun own =>
    let columns := (n.firstValues own).entries.map fun (column, value) => (column, value.toJson)
    .object (columns ++ nestBelow n own children)

/-- The entries of a record for some children: one record or null, or a list of records. -/
def nestBelow (n : Node) (own : List Row) : List LoadTree → List (String × Json)
  | [] => []
  | tree :: rest =>
    let loaded := nest tree (p.rowsBelow answers n own tree.info)
    (tree.info.name, tree.info.cardinality.entry loaded) :: nestBelow n own rest

end

mutual

/-- The columns of every record that rows make for the node with a number, anywhere in a tree. -/
def recordsOf (id : Nat) : LoadTree → List Row → List (KeyMap Value)
  | .node n children => fun rows => (n.groups rows).flatMap fun own =>
    (if n.id = id then [n.firstValues own] else []) ++ recordsBelow id n own children

/-- The columns of every record for the node with a number below a record. -/
def recordsBelow (id : Nat) (n : Node) (own : List Row) : List LoadTree → List (KeyMap Value)
  | [] => []
  | tree :: rest =>
    recordsOf id tree (p.rowsBelow answers n own tree.info) ++ recordsBelow id n own rest

end

end Plan

/-- An element at the end is dropped if it occurred before. -/
theorem eraseDups_concat {α : Type} [BEq α] [LawfulBEq α] (l : List α) (a : α) :
    (l ++ [a]).eraseDups = if a ∈ l then l.eraseDups else l.eraseDups ++ [a] := by
  rw [List.eraseDups_append]
  by_cases ha : a ∈ l <;> simp [List.removeAll, List.eraseDups_cons, ha]

/-- No element is left twice. -/
theorem nodup_eraseDups {α : Type} [BEq α] [LawfulBEq α] (l : List α) : l.eraseDups.Nodup := by
  induction l using List.reverseRecOn with
  | nil => simp
  | append_singleton l a ih =>
    rw [eraseDups_concat]
    split
    · exact ih
    · rename_i ha
      simpa [List.nodup_append', ih] using ha

namespace Node

variable {n : Node} {row : Row} {rows more : List Row} {key : String}

theorem mem_keys : key ∈ n.keys rows ↔ ∃ row ∈ rows, n.key? row = some key := by
  rw [keys, List.mem_eraseDups, List.mem_filterMap]

@[simp] theorem keys_nil : n.keys [] = [] := rfl

/-- A row without a key adds no key. -/
theorem keys_concat_none (h : n.key? row = none) : n.keys (rows ++ [row]) = n.keys rows := by
  simp [keys, h]

/-- A row adds its key at the end if it is new. -/
theorem keys_concat_some (h : n.key? row = some key) :
    n.keys (rows ++ [row]) = if key ∈ n.keys rows then n.keys rows else n.keys rows ++ [key] := by
  have hrow : [row].filterMap n.key? = [key] := by simp [h]
  simp only [keys, List.filterMap_append, hrow, eraseDups_concat, List.mem_eraseDups]

theorem rowsOf_concat :
    n.rowsOf key (rows ++ [row]) = n.rowsOf key rows ++ if n.key? row = some key then [row] else [] := by
  by_cases h : n.key? row = some key <;> simp [rowsOf, h]

/-- A key has rows exactly if it occurs. -/
theorem rowsOf_eq_nil : n.rowsOf key rows = [] ↔ key ∉ n.keys rows := by
  simp [rowsOf, mem_keys]

/-- The columns of a record are settled by its first row. -/
theorem firstValues_append (h : rows ≠ []) : n.firstValues (rows ++ more) = n.firstValues rows := by
  cases rows with
  | nil => exact absurd rfl h
  | cons row rest => rfl

end Node

namespace Batch

variable {b : Batch} {map : KeyMap Value} {rows more : List Row}

@[simp] theorem linked_nil : b.linked map [] = [] := by
  unfold linked
  split <;> rfl

/-- Nothing links to a record without a complete key. -/
theorem linked_of_none (h : completeKey map b.parentColumns = none) : b.linked map rows = [] := by
  simp only [linked, h]

/-- A row links to a record if it has its key. -/
theorem linked_singleton {key : List Value} {row : Row}
    (h : completeKey map b.parentColumns = some key) :
    b.linked map [row] = if b.linkOf row = identities key then [row] else [] := by
  by_cases hlink : b.linkOf row = identities key <;> simp [linked, h, hlink]

theorem linked_append : b.linked map (rows ++ more) = b.linked map rows ++ b.linked map more := by
  unfold linked
  split
  · exact List.filter_append ..
  · rfl

end Batch

namespace Plan

variable {p : Plan} {answers : Nat → List Row} {n : Node} {own : List Row}

/-- The rows for a child that is read from the same statement. -/
theorem rowsBelow_of_eq {child : Node} (h : child.source = n.source) :
    p.rowsBelow answers n own child = own := by
  rw [rowsBelow, if_pos h]

/-- The rows for a child that opens a batch. -/
theorem rowsBelow_of_batch {child : Node} {i : Nat} {b : Batch} (h : child.source ≠ n.source)
    (hi : child.source = .batch i) (hb : p.batches[i]? = some b) :
    p.rowsBelow answers n own child = b.linked (n.firstValues own) (answers i) := by
  rw [rowsBelow, if_neg h, hi]
  simp only [hb]

/-- What a child's rows are read off. -/
theorem rowsBelow_congr {child : Node} {own' : List Row} {answers' : Nat → List Row}
    (h : child.source ≠ n.source) (hvalues : n.firstValues own = n.firstValues own')
    (hanswers : ∀ i, child.source = .batch i → answers i = answers' i) :
    p.rowsBelow answers n own child = p.rowsBelow answers' n own' child := by
  rw [rowsBelow, rowsBelow, if_neg h, if_neg h]
  split
  · rfl
  · rename_i i hi
    rw [hvalues, hanswers i hi]

theorem nestBelow_eq_map (children : List LoadTree) :
    p.nestBelow answers n own children = children.map fun c =>
      (c.info.name,
        c.info.cardinality.entry (p.nest answers c (p.rowsBelow answers n own c.info))) := by
  induction children with
  | nil => rfl
  | cons c rest ih => rw [nestBelow, ih, List.map_cons]

theorem mem_recordsBelow {id : Nat} {children : List LoadTree} {values : KeyMap Value} :
    values ∈ p.recordsBelow answers id n own children ↔
      ∃ c ∈ children, values ∈ p.recordsOf answers id c (p.rowsBelow answers n own c.info) := by
  induction children with
  | nil => simp [recordsBelow]
  | cons c rest ih => rw [recordsBelow, List.mem_append, ih, List.exists_mem_cons_iff]

end Plan

end EagerLoad
