import EagerLoad.Plan.Cache

/-!
# Loading across a session

A session installs one schema and shares one plan cache. The first schema that can be built stays
installed; until then nothing can be loaded.
-/

namespace EagerLoad

/-- What a session shares. -/
structure Session where
  schema : Option Schema
  cache : PlanCache

namespace Session

/-- A session at its start. -/
def start : Session := ⟨none, .empty⟩

/-- An attempt to install a schema. -/
structure Installation where
  /-- Whether the schema was asked for, which it is only while none is installed. -/
  built : Bool
  result : Except Error Schema

/-- Install a schema unless one is installed already. A schema that cannot be built leaves the session
as it was. -/
def install (session : Session) (build : Unit → Except Error Schema) : Installation × Session :=
  match session.schema with
  | some schema => (⟨false, .ok schema⟩, session)
  | none =>
    match build () with
    | .ok schema => (⟨true, .ok schema⟩, { session with schema := some schema })
    | .error e => (⟨true, .error e⟩, session)

/-- The installed schema. -/
def installed (session : Session) : Except Error Schema :=
  match session.schema with
  | some schema => .ok schema
  | none => .error (.configuration "schema graph has not been installed")

/-- The plan for a request on the installed schema, through the shared cache. -/
def planFor (session : Session) (r : Request) : Except Error StoredPlan × Session :=
  match session.installed with
  | .error e => (.error e, session)
  | .ok schema =>
    let (result, cache) := schema.planFor r session.cache
    (result, { session with cache })

end Session

end EagerLoad
