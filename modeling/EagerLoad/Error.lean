/-!
# Errors

`Error` is what every operation of the library reports. Faults of statements and of schema
declarations have types of their own, each with its message, and are reported through `Error`.
-/

namespace EagerLoad

/-- What an operation reports when it fails. -/
inductive Error where
  /-- The database refused a statement or could not be reached. -/
  | database (message : String)
  | notFound (message : String)
  /-- The operation affected nothing. -/
  | forbidden (message : String)
  /-- A unique value is already taken. -/
  | conflict (message : String)
  /-- A constraint violation as the database reports it, not yet classified. -/
  | integrity (constraint : Option String) (message : String)
  | validation (message : String)
  /-- Parameters that cannot be used together. -/
  | invalidParams (message : String)
  | serialization (message : String)
  | connection (message : String)
  | transaction (message : String)
  /-- A look-up in the schema failed. -/
  | schema (message : String)
  /-- A statement could not be built or its result not read. -/
  | query (message : String)
  | configuration (message : String)
deriving DecidableEq

namespace Error

/-- The text shown for an error. Absence and conflict show their message alone. -/
def message : Error → String
  | .database m => "Database error: " ++ m
  | .notFound m => m
  | .forbidden m => m
  | .conflict m => m
  | .integrity (some name) m => "Integrity violation on '" ++ name ++ "': " ++ m
  | .integrity none m => "Integrity violation: " ++ m
  | .validation m => "Validation error: " ++ m
  | .invalidParams m => "Invalid parameters: " ++ m
  | .serialization m => "Serialization error: " ++ m
  | .connection m => "Connection error: " ++ m
  | .transaction m => "Transaction error: " ++ m
  | .schema m => "Schema error: " ++ m
  | .query m => "Query error: " ++ m
  | .configuration m => "Configuration error: " ++ m

/-- Whether the database reported a violated constraint. -/
def isIntegrity : Error → Bool
  | .integrity _ _ => true
  | _ => false

end Error

/-- Why a statement cannot be built. -/
inductive QueryError where
  | missingFields (what : String)
  | invalidParameter (what : String)
  | unknownColumn (entity column : String)
deriving DecidableEq

/-- The text shown for a statement that cannot be built. -/
def QueryError.message : QueryError → String
  | .missingFields what => "Missing fields: " ++ what
  | .invalidParameter what => "Invalid parameter: " ++ what
  | .unknownColumn entity column => s!"Unknown column '{column}' on entity '{entity}'"

instance : Coe QueryError Error := ⟨fun e => .query e.message⟩

/-- Why declarations do not make a schema. -/
inductive SchemaError where
  | undeclaredEntity (relation entity : String)
  | duplicateEntity (entity : String)
  | duplicateRelation (entity relation : String)
  | unknownJoinColumn (relation entity column : String)
  | missingInverse (relation inverse : String)
  | invalidConfiguration (what : String)
deriving DecidableEq

/-- The text shown for a declaration that is refused. -/
def SchemaError.message : SchemaError → String
  | .undeclaredEntity relation entity =>
    s!"Relationship '{relation}' references undeclared entity '{entity}'"
  | .duplicateEntity entity => s!"Entity '{entity}' is declared more than once"
  | .duplicateRelation entity relation =>
    s!"Relationship '{relation}' is declared more than once on '{entity}'"
  | .unknownJoinColumn relation entity column =>
    s!"Relationship '{relation}' joins on unknown column '{entity}.{column}'"
  | .missingInverse relation inverse =>
    s!"Relationship '{relation}' declares inverse '{inverse}' which does not exist"
  | .invalidConfiguration what => "Invalid relationship configuration: " ++ what

instance : Coe SchemaError Error := ⟨fun e => .configuration e.message⟩

end EagerLoad
