import EagerLoad.Description
import EagerLoad.Plan.Compile

/-!
# The plan cache

Plans are stored under the shape of the request that they answer, and are never replaced or removed.
The plan stored first under a key is the one that every later call for that key returns, also a call
that began to compile before it was stored.
-/

namespace EagerLoad

open Sql

/-- The shape of a request. -/
structure CacheKey where
  /-- The position of the root entity. -/
  root : Nat
  /-- The distinct relation names in ascending order. -/
  relations : List String
  ordering : List SortKey
  limit : Option Nat
  selfKey : Option String
  /-- The description of the adjustments, if there are any. -/
  adjustments : Option String
  deriving DecidableEq

/-- The description of a request's adjustments, if it has any. -/
def Request.fingerprint (r : Request) : Option String :=
  if r.adjustments.isEmpty then none else some (describeConditions r.adjustments).text

/-- The shape of a request on a schema. -/
def Schema.cacheKey (s : Schema) (r : Request) : Except Error CacheKey := do
  let id ← s.entityNamed r.model
  return ⟨id, r.relationNames, r.ordering, r.limit, r.selfKey, r.fingerprint⟩

/-- Plans by the shape of their requests, with counts of the calls made. -/
structure PlanCache where
  /-- The plans in the order in which they were stored. -/
  entries : List (CacheKey × Plan)
  hits : Nat
  misses : Nat
  /-- How many compiled plans were dropped because one was stored in the meantime. -/
  redundant : Nat

/-- A stored plan with its place in the cache, which tells it from every other stored plan. -/
structure StoredPlan where
  slot : Nat
  plan : Plan

namespace PlanCache

/-- The cache before any call. -/
def empty : PlanCache := ⟨[], 0, 0, 0⟩

/-- The plan stored under a key. -/
def get? (cache : PlanCache) (key : CacheKey) : Option StoredPlan :=
  let slot := cache.entries.findIdx fun entry => entry.1 = key
  cache.entries[slot]?.map fun entry => ⟨slot, entry.2⟩

/-- The share of calls that found a plan; zero before any call. -/
def hitRate (cache : PlanCache) : Float :=
  if cache.hits + cache.misses = 0 then 0
  else .ofNat cache.hits / .ofNat (cache.hits + cache.misses)

/-- Store a compiled plan, unless one is stored under its key already. -/
def store (cache : PlanCache) (key : CacheKey) (plan : Plan) : StoredPlan × PlanCache :=
  match cache.get? key with
  | some stored => (stored, { cache with redundant := cache.redundant + 1 })
  | none => (⟨cache.entries.length, plan⟩, { cache with entries := cache.entries ++ [(key, plan)] })

end PlanCache

/-- A computation that may use a plan cache and may fail; what it did to the cache stays in either
case. -/
abbrev Cached (α : Type) := PlanCache → Except Error α × PlanCache

/-- The plan stored under a key, or else the one that `compile` gives, which is then stored. -/
def getOrCompile (key : CacheKey) (compile : Cached Plan) : Cached StoredPlan := fun cache =>
  match cache.get? key with
  | some stored => (.ok stored, { cache with hits := cache.hits + 1 })
  | none =>
    match compile { cache with misses := cache.misses + 1 } with
    | (.error e, cache) => (.error e, cache)
    | (.ok plan, cache) =>
      let (stored, cache) := cache.store key plan
      (.ok stored, cache)

/-- The plan for a request, compiled at most once for each shape. -/
def Schema.planFor (s : Schema) (r : Request) : Cached StoredPlan := fun cache =>
  match s.cacheKey r with
  | .error e => (.error e, cache)
  | .ok key => getOrCompile key (fun cache => (s.compile r, cache)) cache

end EagerLoad
