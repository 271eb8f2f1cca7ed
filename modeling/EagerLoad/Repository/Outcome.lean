import EagerLoad.Error

/-!
# Outcomes

An operation on one record may find none. The absence becomes an error only when the record is
demanded, and the kind of operation decides which.
-/

namespace EagerLoad

/-- The kind of operation that an outcome comes from. -/
inductive Category where
  | create
  | select
  | update
  | delete
  | existence
  deriving DecidableEq

/-- The error of demanding a record that is absent. -/
def Category.absence : Category → Error
  | .create => .forbidden "Cannot be created"
  | .update => .forbidden "Cannot be updated"
  | .delete => .forbidden "Cannot be deleted"
  | .select => .notFound "Not found"
  | .existence => .notFound "Not found"

/-- A value, or the kind of operation that did not yield one. -/
inductive Outcome (α : Type) where
  | present (value : α)
  | absent (category : Category)
  deriving DecidableEq

namespace Outcome

variable {α β : Type}

/-- The outcome of an operation that may not yield a value. -/
def of (category : Category) : Option α → Outcome α
  | some value => .present value
  | none => .absent category

/-- The value, or the error of its absence. -/
def demand : Outcome α → Except Error α
  | .present value => .ok value
  | .absent category => .error category.absence

/-- The value, if there is one. -/
def value? : Outcome α → Option α
  | .present value => some value
  | .absent _ => none

/-- Whether there is a value. -/
def isPresent (o : Outcome α) : Bool :=
  o.value?.isSome

/-- Change the value, if there is one. -/
def map (f : α → β) : Outcome α → Outcome β
  | .present value => .present (f value)
  | .absent category => .absent category

end Outcome

end EagerLoad
