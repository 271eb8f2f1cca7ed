import EagerLoad.Plan.Tree
import EagerLoad.Row

/-!
# Records

Hydration folds rows into an arena of records. A record belongs to a node of the plan and, below the
root, to a parent record. Its key tells it from the other records of the same node and parent, so a
row that repeats a key adds nothing. Records are never changed or removed. Beside them an arena keeps
lists that grow with every record: the roots, the records below each record, and where each one is found.
-/

namespace EagerLoad

/-- Positions under keys. There is an entry for each key under which something was listed. -/
abbrev Listing (κ : Type) := List (κ × List Nat)

namespace Listing

variable {κ : Type} [DecidableEq κ]

/-- The positions under a key, in the order in which they were listed. -/
def under (listing : Listing κ) (key : κ) : List Nat :=
  (listing.lookup key).getD []

/-- List a position under a key, behind those that are listed there. -/
def add (key : κ) (position : Nat) : Listing κ → Listing κ
  | [] => [(key, [position])]
  | entry :: rest =>
    if key = entry.1 then (entry.1, entry.2 ++ [position]) :: rest else entry :: add key position rest

theorem under_cons (entry : κ × List Nat) (rest : Listing κ) (key : κ) :
    under (entry :: rest) key = if key = entry.1 then entry.2 else under rest key := by
  rw [under, List.lookup_cons]
  split <;> rename_i h
  · rw [if_pos (beq_iff_eq.mp h)]
    rfl
  · rw [if_neg (beq_eq_false_iff_ne.mp h)]
    rfl

/-- Only what is listed under the key changes. -/
theorem under_add (listing : Listing κ) (key other : κ) (position : Nat) :
    (listing.add key position).under other =
      listing.under other ++ if other = key then [position] else [] := by
  induction listing with
  | nil =>
    rw [add, under_cons]
    rfl
  | cons entry rest ih =>
    unfold add
    split
    · rename_i hkey
      rw [under_cons, under_cons, hkey]
      split <;> simp
    · rename_i hkey
      rw [under_cons, under_cons, ih]
      split
      · rename_i hother
        rw [if_neg fun heq => hkey (heq.symm.trans hother), List.append_nil]
      · rfl

end Listing

/-- A hydrated record. -/
structure Record where
  /-- The number of its node. -/
  node : Nat
  /-- The values of its columns. -/
  values : KeyMap Value

/-- A record with what it is found by. -/
structure KeyedRecord extends Record where
  /-- The position of the record that it belongs to; none for a root. -/
  parent : Option Nat
  /-- The identity of its primary key. -/
  key : String

structure Arena where
  /-- The records so far, in order of creation. -/
  records : List Record
  /-- For a record and a node, the positions of the records of the node that belong to the record. -/
  children : Listing (Nat × Nat)
  /-- The positions of the records by parent, node and key. -/
  seen : List ((Option Nat × Nat × String) × Nat)
  /-- The positions of the root records. -/
  roots : List Nat

namespace Arena

/-- No record. -/
def empty : Arena := ⟨[], [], [], []⟩

/-- The position of the record of a node, a parent and a key. -/
def find? (a : Arena) (node : Nat) (parent : Option Nat) (key : String) : Option Nat :=
  a.seen.lookup (parent, node, key)

/-- The positions of the records of a node below a parent, in order. -/
def childrenOf (a : Arena) (node parent : Nat) : List Nat :=
  a.children.under (parent, node)

/-- Add a record at the end, where it has not been seen before. -/
def push (a : Arena) (e : KeyedRecord) : Arena :=
  let position := a.records.length
  let a := { a with
    records := a.records ++ [e.toRecord]
    seen := a.seen ++ [((e.parent, e.node, e.key), position)] }
  match e.parent with
  | some parent => { a with children := a.children.add (parent, e.node) position }
  | none => { a with roots := a.roots ++ [position] }

end Arena

/-- Read the columns of a node from a row. The first column that is missing makes the error. -/
def Node.readColumns (n : Node) (row : Row) : Except Error (KeyMap Value) :=
  n.columns.foldlM (fun values column => do
    return values.insert column (← row.named (n.label column))) .empty

/-- A step that may fail; the arena keeps what it held at the point of failure. -/
abbrev Hydrate (α : Type) := Arena → Except Error α × Arena

/-- The record of a node for a row: the one that is there, or else a new one. There is none if the key
is null, which is what an outer join without a match yields. -/
def Node.absorb (n : Node) (row : Row) (parent : Option Nat) : Hydrate (Option Nat) := fun arena =>
  match row.named (n.label n.primaryKey) with
  | .error e => (.error e, arena)
  | .ok key =>
    if key.isNull then (.ok none, arena)
    else match arena.find? n.id parent key.identity with
      | some position => (.ok (some position), arena)
      | none =>
        match n.readColumns row with
        | .error e => (.error e, arena)
        | .ok values =>
          (.ok (some arena.records.length),
            arena.push { node := n.id, values, parent, key := key.identity })

mutual

/-- Fold a row into the records of a node and of the nodes below it that are read from the same
statement. -/
def LoadTree.absorb (row : Row) (source : RowSource) (parent : Option Nat) :
    LoadTree → Hydrate Unit
  | .node info children => fun arena =>
    match info.absorb row parent arena with
    | (.error e, arena) => (.error e, arena)
    | (.ok none, arena) => (.ok (), arena)
    | (.ok (some position), arena) => LoadTree.absorbBelow row source position children arena

/-- Fold a row into those of some subtrees that are read from the same statement. -/
def LoadTree.absorbBelow (row : Row) (source : RowSource) (parent : Nat) :
    List LoadTree → Hydrate Unit
  | [] => fun arena => (.ok (), arena)
  | tree :: rest => fun arena =>
    if tree.info.source = source then
      match tree.absorb row source (some parent) arena with
      | (.error e, arena) => (.error e, arena)
      | (.ok (), arena) => LoadTree.absorbBelow row source parent rest arena
    else LoadTree.absorbBelow row source parent rest arena

end

mutual

/-- The record at a position as a JSON object: its columns, then an entry for each child node, over a
column of the same name. -/
def LoadTree.recordJson (arena : Arena) (position : Nat) : LoadTree → Json
  | .node _ children =>
    let columns := match arena.records[position]? with
      | some r => r.values.entries.map fun (column, value) => (column, value.toJson)
      | none => []
    .object (columns ++ LoadTree.entriesJson arena position children)

/-- The entries of a record for some child nodes: one record or null, or a list of records. -/
def LoadTree.entriesJson (arena : Arena) (position : Nat) : List LoadTree → List (String × Json)
  | [] => []
  | tree :: rest =>
    let loaded := arena.childrenOf tree.info.id position
    let value := match tree.info.cardinality with
      | .one => match loaded with
        | [] => .null
        | first :: _ => tree.recordJson arena first
      | .many => .arr (loaded.map fun child => tree.recordJson arena child)
    (tree.info.name, value) :: LoadTree.entriesJson arena position rest

end

/-- The root records as nested JSON objects, in order of creation. -/
def Plan.finish (p : Plan) (arena : Arena) : List Json :=
  arena.roots.map fun root => p.tree.recordJson arena root

/-- Fold a row of the primary statement. -/
def Plan.absorbPrimary (p : Plan) (row : Row) : Hydrate Unit :=
  p.tree.absorb row .primary none

end EagerLoad
