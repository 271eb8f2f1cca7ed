import EagerLoad.Settings.Error
import EagerLoad.Settings.Url
import EagerLoad.Plan.Request
import EagerLoad.Text.Basic

/-!
# Settings

Connection and planner settings with their defaults, and how they are read from environment variables.
The connection URL is a template in which placeholders are substituted one after the other.
-/

namespace EagerLoad

/-- Settings of the connection pool. -/
structure PoolConfig where
  maxConnections : Nat
  minConnections : Nat
  /-- Seconds to wait for a connection. -/
  acquireTimeout : Nat
  /-- Seconds after which an idle connection is closed. -/
  idleTimeout : Option Nat
  /-- Seconds after which any connection is closed. -/
  maxLifetime : Option Nat
  /-- Whether a connection is tested before it is handed out. -/
  testBeforeAcquire : Bool
  deriving DecidableEq

/-- The pool settings used when nothing else is said. -/
def PoolConfig.standard : PoolConfig := ⟨10, 1, 30, some 600, some 1800, true⟩

/-- Settings of the database connection. -/
structure DatabaseConfig where
  /-- The URL template. -/
  uri : String
  name : String
  host : String
  port : Nat
  user : String
  password : String
  pool : PoolConfig
  deriving DecidableEq

namespace DatabaseConfig

/-- The connection settings used when nothing else is said. -/
def standard : DatabaseConfig where
  uri := "postgresql://\x7buser\x7d:\x7bpassword\x7d@\x7bhost\x7d:\x7bport\x7d/\x7bname\x7d"
  name := "app"
  host := "localhost"
  port := 5432
  user := "postgres"
  password := ""
  pool := .standard

/-- The placeholders of the template with their values, in the order of substitution. A template that
mentions `sqlite` has a name only. -/
def substitutions (c : DatabaseConfig) : List (String × String) :=
  let name := ("\x7bname\x7d", c.name)
  if Text.contains c.uri "sqlite" then [name]
  else [("\x7buser\x7d", c.user), ("\x7bpassword\x7d", c.password), ("\x7bhost\x7d", c.host),
    ("\x7bport\x7d", toString c.port), name]

/-- The connection URL. -/
def url (c : DatabaseConfig) : String :=
  c.substitutions.foldl (fun text (placeholder, value) => Text.replace text placeholder value) c.uri

/-- Refuse settings that cannot serve; the first fault counts. -/
def validate (c : DatabaseConfig) : Except ConfigError Unit :=
  if c.uri = "" then .error (.missingVariable "DB_URI")
  else if c.pool.maxConnections = 0 then
    .error (.validationFailed "Maximum pool connections must be greater than 0")
  else if c.pool.minConnections > c.pool.maxConnections then
    .error (.validationFailed "Minimum pool connections cannot exceed the maximum")
  else if c.pool.acquireTimeout = 0 then
    .error (.validationFailed "Acquire timeout must be greater than 0")
  else match Url.check c.url with
    | .ok () => .ok ()
    | .error fault => .error (.invalidValue "uri" c.uri s!"a connection URL ({fault.message})")

/-- Why no pool can be made from the settings, if that is so. -/
def poolFault? (c : DatabaseConfig) : Option PoolError :=
  match c.validate with
  | .ok () => none
  | .error e => some (.misconfigured e.message)

end DatabaseConfig

/-- The options of the pool that is made: a timeout that is not set keeps the pool's own default. -/
def PoolConfig.options (c : PoolConfig) : PoolConfig :=
  { c with
    idleTimeout := some (c.idleTimeout.getD 600)
    maxLifetime := some (c.maxLifetime.getD 1800) }

/-- Environment variables by name. -/
abbrev Environment := KeyMap String

/-- A number below `2^bits` in ASCII digits, after a plus sign or not. -/
def readNumber? (bits : Nat) (text : String) : Option Nat :=
  let digits := match text.toList with
    | '+' :: digits => digits
    | digits => digits
  if !digits.isEmpty && digits.all Char.isDigit then
    let n := Text.natOfDigits 10 digits
    if n < 1 <<< bits then some n else none
  else none

/-- A truth value in lower case. -/
def readBool? (text : String) : Option Bool :=
  if text = "true" then some true else if text = "false" then some false else none

namespace Environment

/-- A variable, read after blanks at either end are removed, or a default if it is not set. -/
def parse {α : Type} (env : Environment) (read : String → Option α) (name field : String)
    (default : α) (expected : String) : Except ConfigError α :=
  match env.get? name with
  | none => .ok default
  | some raw =>
    match read (Text.trim raw) with
    | some value => .ok value
    | none => .error (.invalidValue field raw expected)

/-- The connection settings of an environment. -/
def databaseConfig (env : Environment) : Except ConfigError DatabaseConfig := do
  let text (name default : String) : String := (env.get? name).getD default
  let standard := DatabaseConfig.standard
  let pool := PoolConfig.standard
  let port ← env.parse (readNumber? 16) "DB_PORT" "port" standard.port "valid port number"
  let maxConnections ← env.parse (readNumber? 32) "DB_POOL_MAX_CONNECTIONS" "pool.max_connections"
    pool.maxConnections "positive number of connections"
  let minConnections ← env.parse (readNumber? 32) "DB_POOL_MIN_CONNECTIONS" "pool.min_connections"
    pool.minConnections "number of connections"
  let acquireTimeout ← env.parse (readNumber? 64) "DB_POOL_ACQUIRE_TIMEOUT" "pool.acquire_timeout"
    pool.acquireTimeout "valid number of seconds"
  let testBeforeAcquire ← env.parse readBool? "DB_POOL_PRE_PING" "pool.test_before_acquire"
    pool.testBeforeAcquire "true or false"
  let config : DatabaseConfig :=
    { uri := text "DB_URI" standard.uri
      name := text "DB_NAME" standard.name
      host := text "DB_HOST" standard.host
      port
      user := text "DB_USER" standard.user
      password := text "DB_PASSWORD" standard.password
      pool := { pool with maxConnections, minConnections, acquireTimeout, testBeforeAcquire } }
  config.validate
  return config

/-- The bound on collections that an environment sets. -/
def loadLimit (env : Environment) : Except ConfigError Nat := do
  let limit ← env.parse (readNumber? 32) "DB_RELATIONSHIP_LOAD_LIMIT" "relationship_load_limit"
    defaultLoadLimit "positive number of rows"
  if limit = 0 then throw (.validationFailed "Relationship load limit must be greater than 0")
  return limit

end Environment

end EagerLoad
