import EagerLoad.Row
import EagerLoad.Sql.Query

/-!
# Transactions

Operations run inside a transaction that belongs to the caller. An operation is a dialogue: it asks one
statement at a time and goes on by the answer, so everything that a database sees of it, and everything
that it makes of each sequence of answers, can be read off the dialogue.
-/

namespace EagerLoad

open Sql

/-- How a statement is put to a transaction. -/
inductive Call where
  /-- Ask for the number of rows affected. -/
  | execute
  /-- Ask for all result rows. -/
  | fetchAll
  /-- Ask for the first result row. -/
  | fetchOptional
  deriving DecidableEq

/-- What a call is answered with. -/
abbrev Call.Answer : Call → Type
  | .execute => UInt64
  | .fetchAll => List Row
  | .fetchOptional => Option Row

/-- A computation that puts statements to a transaction. -/
inductive Dialogue (α : Type) where
  | done (result : α)
  | ask (call : Call) (query : Query) (next : Except Error call.Answer → Dialogue α)

namespace Dialogue

/-- Continue a dialogue by its result. -/
def bind {α β : Type} (f : α → Dialogue β) : Dialogue α → Dialogue β
  | .done result => f result
  | .ask call query next => .ask call query fun answer => (next answer).bind f

instance : Monad Dialogue where
  pure := .done
  bind d f := d.bind f

end Dialogue

/-- An operation inside a transaction, which may fail. -/
abbrev Transaction (α : Type) := ExceptT Error Dialogue α

namespace Transaction

/-- Put one statement to the transaction. -/
def ask (call : Call) (query : Query) : Transaction call.Answer :=
  ExceptT.mk (.ask call query .done)

/-- The result of a computation that asks nothing. -/
def ofExcept {α : Type} (result : Except Error α) : Transaction α :=
  ExceptT.mk (.done result)

/-- The same operation with its error changed. -/
def mapError {α : Type} (change : Error → Error) (operation : Transaction α) : Transaction α :=
  operation.adapt change

end Transaction

/-- A prepared answer to a statement. -/
inductive Response where
  | rows (rows : List Row)
  | affected (count : UInt64)
  | failure (error : Error)

/-- What a call is answered when nothing was prepared for it. -/
def Call.silence : (call : Call) → call.Answer
  | .execute => (0 : UInt64)
  | .fetchAll => []
  | .fetchOptional => none

/-- What prepared rows answer to a call. -/
def Call.ofRows (result : List Row) : (call : Call) → call.Answer
  | .execute => UInt64.ofNat result.length
  | .fetchAll => result
  | .fetchOptional => result.head?

/-- What a prepared number of affected rows answers to a call. -/
def Call.ofCount (count : UInt64) : (call : Call) → call.Answer
  | .execute => count
  | call => call.silence

/-- What a prepared answer, or the lack of one, says to a call. -/
def Response.answer (call : Call) : Option Response → Except Error call.Answer
  | some (.rows result) => .ok (call.ofRows result)
  | some (.affected count) => .ok (call.ofCount count)
  | some (.failure e) => .error e
  | none => .ok call.silence

/-- A finished dialogue: its result, the statements it put, and the answers it left unused. -/
structure Played (α : Type) where
  result : α
  asked : List (Call × Query)
  unused : List Response

/-- Run a dialogue against prepared answers. -/
def Dialogue.play {α : Type} (responses : List Response) : Dialogue α → Played α
  | .done result => ⟨result, [], responses⟩
  | .ask call query next =>
    let played := (next (Response.answer call responses.head?)).play responses.tail
    { played with asked := (call, query) :: played.asked }

end EagerLoad
