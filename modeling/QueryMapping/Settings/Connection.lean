import QueryMapping.Duration
import QueryMapping.Settings.Document
import QueryMapping.Sql.Engine

/-! Settings of a database connection and of its pool. A connection is described by a data source
name, by single fields, or by both. -/

namespace QueryMapping

structure PoolSettings where
  maxConnections : Option Nat
  minConnections : Option Nat
  acquireTimeout : Option Duration
  idleTimeout : Option Duration
  maxLifetime : Option Duration
  testBeforeAcquire : Option Bool
deriving DecidableEq, Repr

structure ConnectionSettings where
  engine : Option Engine
  dsn : Option String
  host : Option String
  port : Option Nat
  user : Option String
  password : Option String
  database : Option String
  path : Option String
  params : Option (List (String × String))
  pool : Option PoolSettings
deriving DecidableEq, Repr

/-- How a pool is opened. An absent timeout never passes. -/
structure ConnectOptions where
  maxConnections : Option Nat
  minConnections : Option Nat
  acquireTimeout : Option Duration
  idleTimeout : Option Duration
  maxLifetime : Option Duration
  testBeforeAcquire : Bool
  createDirectories : Bool
deriving DecidableEq, Repr

namespace ConnectOptions

def standard : ConnectOptions := ⟨some 10, none, some ⟨30, 0⟩, none, none, false, true⟩

/-- One connection that is never given up. Each connection to a database in memory has a database of
its own, so there must not be another. -/
def pinned (o : ConnectOptions) : ConnectOptions :=
  { o with
    maxConnections := some 1
    minConnections := some 1
    idleTimeout := none
    maxLifetime := none }

end ConnectOptions

namespace PoolSettings

def unset : PoolSettings := ⟨none, none, none, none, none, none⟩

def options (p : PoolSettings) : ConnectOptions :=
  let s := ConnectOptions.standard
  { maxConnections := p.maxConnections.or s.maxConnections
    minConnections := p.minConnections.or s.minConnections
    acquireTimeout := p.acquireTimeout.or s.acquireTimeout
    idleTimeout := p.idleTimeout.or s.idleTimeout
    maxLifetime := p.maxLifetime.or s.maxLifetime
    testBeforeAcquire := p.testBeforeAcquire.getD s.testBeforeAcquire
    createDirectories := s.createDirectories }

def duration? : Node.Reader Duration
  | .text s =>
    match Duration.parse? s with
    | some d => .ok d
    | none => .error (.invalidValue [])
  | _ => .error (.invalidType [])

def fieldNames : List String :=
  ["max_conns", "min_conns", "acquire_timeout", "idle_timeout", "max_lifetime",
    "test_before_acquire"]

def readField (p : PoolSettings) (name : String) : Node.Reader PoolSettings := fun node =>
  match name with
  | "max_conns" =>
    do return { p with maxConnections := ← Node.optional? (Node.below? (Nat.pow 2 32)) node }
  | "min_conns" =>
    do return { p with minConnections := ← Node.optional? (Node.below? (Nat.pow 2 32)) node }
  | "acquire_timeout" => do return { p with acquireTimeout := ← Node.optional? duration? node }
  | "idle_timeout" => do return { p with idleTimeout := ← Node.optional? duration? node }
  | "max_lifetime" => do return { p with maxLifetime := ← Node.optional? duration? node }
  | "test_before_acquire" => do
    return { p with testBeforeAcquire := ← Node.optional? Node.bool? node }
  | name => .error (.unknownField name)

def ofNode : Node.Reader PoolSettings := Node.fields? fieldNames readField unset

end PoolSettings

namespace ConnectionSettings

def unset : ConnectionSettings :=
  ⟨none, none, none, none, none, none, none, none, none, none⟩

def engineNamed? : String → Except SettingsError Engine
  | "postgres" => .ok .postgres
  | "mysql" => .ok .mysql
  | "sqlite" => .ok .sqlite
  | _ => .error (.unknownVariant [])

/-- An engine is given by its name, or by a record whose first key is the name and has no value. -/
def engine? : Node.Reader Engine
  | .text name => engineNamed? name
  | .record ((name, value) :: _) =>
    Node.at? name (fun value => do
      let engine ← engineNamed? name
      match value with
      | .null => return engine
      | _ => throw (.invalidType [])) value
  | _ => .error (.invalidType [])

def params? : Node.Reader (List (String × String))
  | .record members =>
    members.mapM fun member => do
      let value ← Node.at? member.1 Node.text? member.2
      return (member.1, value)
  | _ => .error (.invalidType [])

def fieldNames : List String :=
  ["engine", "dsn", "host", "port", "user", "password", "dbname", "path", "params", "pool"]

def readField (c : ConnectionSettings) (name : String) : Node.Reader ConnectionSettings :=
  fun node =>
    match name with
    | "engine" => do return { c with engine := ← Node.optional? engine? node }
    | "dsn" => do return { c with dsn := ← Node.optional? Node.text? node }
    | "host" => do return { c with host := ← Node.optional? Node.text? node }
    | "port" => do return { c with port := ← Node.optional? (Node.below? (Nat.pow 2 16)) node }
    | "user" => do return { c with user := ← Node.optional? Node.text? node }
    | "password" => do return { c with password := ← Node.optional? Node.text? node }
    | "dbname" => do return { c with database := ← Node.optional? Node.text? node }
    | "path" => do return { c with path := ← Node.optional? Node.text? node }
    | "params" => do return { c with params := ← Node.optional? params? node }
    | "pool" => do return { c with pool := ← Node.optional? PoolSettings.ofNode node }
    | name => .error (.unknownField name)

def ofSection (path : String) : Node.Reader ConnectionSettings :=
  Node.section? path (Node.fields? fieldNames readField unset)

def ofDocument (path : String) (t : Json.Tree) : Except SettingsError ConnectionSettings := do
  ofSection path (← Node.ofDocument t)

def options (c : ConnectionSettings) : ConnectOptions :=
  c.pool.elim ConnectOptions.standard PoolSettings.options

end ConnectionSettings

end QueryMapping
