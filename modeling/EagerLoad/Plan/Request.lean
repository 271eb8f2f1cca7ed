import EagerLoad.Sql.Condition

/-!
# Load requests

A request names a root entity and the relations to load with it. Collections may be bounded and
ordered, and an adjustment narrows which targets of a relation qualify.
-/

namespace EagerLoad

open Sql

/-- The bound on collections when a request does not set one. -/
def defaultLoadLimit : Nat := 100

/-- What to load eagerly. -/
structure Request where
  /-- The name of the root entity. -/
  model : String
  /-- The names of the relations to load, in any order. -/
  relations : List String
  /-- The ordering of collections. -/
  ordering : List SortKey
  /-- How many targets of a collection are loaded for one source; all of them without a bound. -/
  limit : Option Nat
  /-- The column of the root on which a collection of the root's own type is joined. -/
  selfKey : Option String
  /-- Conditions on targets, by relation name. -/
  adjustments : KeyMap Condition

namespace Request

/-- The request for an entity alone, with the default bound. -/
def forModel (model : String) : Request :=
  ⟨model, [], [], some defaultLoadLimit, none, .empty⟩

/-- Narrow which targets of `relation` qualify, on top of earlier conditions for it. -/
def adjust (r : Request) (relation : String) (condition : Condition) : Request :=
  let merged := match r.adjustments.get? relation with
    | some existing => existing.both condition
    | none => condition
  { r with adjustments := r.adjustments.insert relation merged }

/-- The distinct relation names in ascending order. -/
def relationNames (r : Request) : List String :=
  sortedNames r.relations

end Request

end EagerLoad
