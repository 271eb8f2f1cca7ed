import EagerLoad.Error

/-!
# Faults of settings and connections

What can be wrong with settings, what the database driver may report, and how a connection pool reports
either.
-/

namespace EagerLoad

/-- Why settings are refused. -/
inductive ConfigError where
  | missingVariable (name : String)
  | invalidValue (field value expected : String)
  | validationFailed (what : String)
  deriving DecidableEq

/-- The text shown for refused settings. -/
def ConfigError.message : ConfigError → String
  | .missingVariable name => s!"Missing required environment variable: {name}"
  | .invalidValue field value expected =>
    s!"Invalid value for {field}: '{value}', expected {expected}"
  | .validationFailed what => s!"Configuration validation failed: {what}"

instance : Coe ConfigError Error := ⟨fun e => .configuration e.message⟩

/-- What a database driver reports. -/
inductive DriverError where
  /-- The database refused a statement, with a state code and perhaps the violated constraint. -/
  | refused (code constraint : Option String) (message : String)
  | rowNotFound
  | poolTimedOut
  | poolClosed
  | workerCrashed
  | malformed (what : String)
  | columnNotFound (column : String)
  deriving DecidableEq

namespace DriverError

/-- The text shown for a driver's error. -/
def message : DriverError → String
  | .refused _ _ m => "error returned from database: " ++ m
  | .rowNotFound => "no rows returned by a query that expected to return at least one row"
  | .poolTimedOut => "pool timed out while waiting for an open connection"
  | .poolClosed => "attempted to acquire a connection on a closed pool"
  | .workerCrashed => "attempted to communicate with a crashed background worker"
  | .malformed what => "encountered unexpected or invalid data: " ++ what
  | .columnNotFound column => "no column found for name: " ++ column

/-- Whether a state code lies in the class of integrity violations. -/
def isIntegrityCode (code : String) : Bool :=
  "23".toList.isPrefixOf code.toList

/-- The error reported for a driver's error. An integrity violation keeps the name of its
constraint. -/
def toError (e : DriverError) : Error :=
  match e with
  | .refused (some code) constraint m =>
    if isIntegrityCode code then .integrity constraint m else .database e.message
  | e => .database e.message

end DriverError

/-- Why a connection pool cannot serve. -/
inductive PoolError where
  | acquisitionFailed (cause : DriverError)
  | misconfigured (what : String)
  deriving DecidableEq

namespace PoolError

/-- The text shown for a pool that cannot serve. -/
def message : PoolError → String
  | .acquisitionFailed cause => "Connection acquisition failed: " ++ cause.message
  | .misconfigured what => "Configuration error: " ++ what

/-- The error reported for a pool that cannot serve. -/
def toError : PoolError → Error
  | .acquisitionFailed cause => .connection ("Database connection failed: " ++ cause.message)
  | .misconfigured what => .connection ("Database configuration error: " ++ what)

end PoolError

end EagerLoad
