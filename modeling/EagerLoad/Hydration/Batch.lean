import EagerLoad.Hydration.Arena

/-!
# Batched collections

A batch is prepared from the records of its parent node: they are grouped by the identities of the key
columns, and the statement asks for one key tuple of each group. The rows that come back are folded
under every parent of the group with their key.
-/

namespace EagerLoad

open Sql

/-- A batch that waits for its rows. -/
structure PendingBatch where
  statement : Select
  /-- The positions of the parent records by the identities of their keys. -/
  parents : Listing (List String)

/-- The values of some columns, unless one of them is missing or null. -/
def completeKey (values : KeyMap Value) (columns : List String) : Option (List Value) :=
  columns.mapM fun column => (values.get? column).filter fun value => !value.isNull

/-- Parent records with complete keys. -/
structure KeyedParents where
  /-- Their positions by the identities of their keys. -/
  parents : Listing (List String)
  /-- The keys to ask for. -/
  keys : List (List Value)

/-- Add a parent record. Its key is asked for if it is the first one with its identities. -/
def KeyedParents.add (known : KeyedParents) (key : List Value) (parent : Nat) : KeyedParents :=
  let identity := key.map Value.identity
  { parents := known.parents.add identity parent
    keys := if (known.parents.under identity).isEmpty then known.keys ++ [key] else known.keys }

/-- The records of a node that have complete keys. -/
def Arena.groupParents (a : Arena) (node : Nat) (columns : List String) : KeyedParents :=
  a.records.zipIdx.foldl (fun known (r, position) =>
    if r.node = node then
      match completeKey r.values columns with
      | some key => known.add key position
      | none => known
    else known) ⟨[], []⟩

/-- The node with a number. -/
def Plan.node? (p : Plan) (id : Nat) : Option Node :=
  p.nodes.find? (·.id == id)

/-- A batch narrowed to the parents hydrated so far; none if no parent has a complete key. -/
def Plan.prepareBatch (p : Plan) (b : Batch) (arena : Arena) : Option PendingBatch := do
  let parent ← (← p.node? b.node).parent
  let known := arena.groupParents parent b.parentColumns
  if known.keys.isEmpty then none else some ⟨b.forParents known.keys, known.parents⟩

/-- The parents under which a row of a batch belongs. -/
def PendingBatch.parentsOf (pending : PendingBatch) (link : List String) : List Nat :=
  pending.parents.under link

/-- Fold a row under several parents. -/
def LoadTree.absorbUnder (tree : LoadTree) (row : Row) (source : RowSource) :
    List Nat → Hydrate Unit
  | [] => fun arena => (.ok (), arena)
  | parent :: rest => fun arena =>
    match tree.absorb row source (some parent) arena with
    | (.error e, arena) => (.error e, arena)
    | (.ok (), arena) => tree.absorbUnder row source rest arena

/-- Fold a row of batch number `index` under the parents that share its link. -/
def Plan.absorbBatchRow (p : Plan) (index : Nat) (b : Batch) (pending : PendingBatch) (row : Row) :
    Hydrate Unit := fun arena =>
  match b.linkLabels.mapM row.named with
  | .error e => (.error e, arena)
  | .ok link =>
    match p.tree.find? b.node with
    | some tree =>
      tree.absorbUnder row (.batch index) (pending.parentsOf (link.map Value.identity)) arena
    | none => (.ok (), arena)

/-- Fold rows of batch number `index`, one after the other. -/
def Plan.absorbBatch (p : Plan) (index : Nat) (b : Batch) (pending : PendingBatch) :
    List Row → Hydrate Unit
  | [] => fun arena => (.ok (), arena)
  | row :: rest => fun arena =>
    match p.absorbBatchRow index b pending row arena with
    | (.error e, arena) => (.error e, arena)
    | (.ok (), arena) => p.absorbBatch index b pending rest arena

end EagerLoad
