import EagerLoad.Hydration.Batch
import EagerLoad.Transaction

/-!
# Loading a plan

The statement of a plan is put first and its rows are folded. Then each batch that has parents is put,
in order, and its rows are folded before the next batch is prepared.
-/

namespace EagerLoad

open Sql

/-- A hydration step inside a transaction. -/
def Transaction.hydrate (step : Hydrate Unit) (arena : Arena) : Transaction Arena :=
  match step arena with
  | (.error e, _) => .ofExcept (.error e)
  | (.ok (), arena) => .ofExcept (.ok arena)

/-- Fold rows of the primary statement, one after the other. -/
def Plan.absorbPrimaries (p : Plan) : List Row → Hydrate Unit
  | [] => fun arena => (.ok (), arena)
  | row :: rest => fun arena =>
    match p.absorbPrimary row arena with
    | (.error e, arena) => (.error e, arena)
    | (.ok (), arena) => p.absorbPrimaries rest arena

/-- Load the batches of a list, each with its position. -/
def Plan.loadBatches (p : Plan) : List (Batch × Nat) → Arena → Transaction Arena
  | [], arena => return arena
  | (b, index) :: rest, arena =>
    match p.prepareBatch b arena with
    | none => p.loadBatches rest arena
    | some pending => do
      let rows ← Transaction.ask .fetchAll pending.statement.render
      let arena ← Transaction.hydrate (p.absorbBatch index b pending rows) arena
      p.loadBatches rest arena

/-- Put a statement made from the plan's primary one, then its batches, and hydrate what comes back. -/
def Plan.load (p : Plan) (statement : Select) : Transaction (List Json) := do
  let rows ← Transaction.ask .fetchAll statement.render
  let arena ← Transaction.hydrate (p.absorbPrimaries rows) .empty
  let arena ← p.loadBatches p.batches.zipIdx arena
  return p.finish arena

end EagerLoad
