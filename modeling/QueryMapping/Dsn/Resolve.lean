import QueryMapping.Dsn.Basic
import QueryMapping.Dsn.Expand
import QueryMapping.Settings.Connection
import QueryMapping.Url.Edit

/-! The data source name that connection settings describe. A name that is given is the base, and
the single fields override its parts. -/

namespace QueryMapping.Dsn

def expanded (env : Environment) (text : String) : Except DsnError String :=
  (expand env text).mapError .unsetVariable

def orFail {α : Type} (e : DsnError) : Option α → Except DsnError α
  | some a => .ok a
  | none => .error e

/-- The engine of the settings; the base, if there is one, has to name the same. -/
def engineOf (configured : Option Engine) (base : Option String) : Except DsnError Engine :=
  match configured, base with
  | some engine, some dsn => do
    let named ← detect dsn
    if named = engine then return engine else throw (.conflict (.engines engine named))
  | some engine, none => .ok engine
  | none, some dsn => detect dsn
  | none, none => .error (.badSetting .noEngine)

/-! ### SQLite -/

def serverField? (c : ConnectionSettings) : Option String :=
  [("host", c.host.isSome), ("port", c.port.isSome), ("user", c.user.isSome),
    ("password", c.password.isSome), ("dbname", c.database.isSome)].find? (·.2) |>.map Prod.fst

def sqliteParameter (env : Environment) (param : String × String) :
    Except DsnError (String × String) := do
  if !sqliteParameters.contains param.1 then throw (.badSetting (.unsupportedParameter param.1))
  let value ← expanded env param.2
  return (param.1, value)

def paramLe (a b : String × String) : Bool := a.1 < b.1 || (a.1 == b.1 && !(b.2 < a.2))

def sortedParams (params : List (String × String)) : List (String × String) :=
  params.mergeSort paramLe

/-- Appends parameters as they are; the first one opens the query unless there is one already. -/
def withParams (dsn : String) : List (String × String) → String
  | [] => dsn
  | param :: rest =>
    let separator := if dsn.toList.contains '?' then "&" else "?"
    rest.foldl (fun dsn p => dsn ++ "&" ++ p.1 ++ "=" ++ p.2)
      (dsn ++ separator ++ param.1 ++ "=" ++ param.2)

def sqliteDsn (env : Environment) (c : ConnectionSettings) (base : Option String) :
    Except DsnError String := do
  if let some field := serverField? c then throw (.conflict (.serverField field))
  let (dsn, fromPath) ←
    match base, c.path with
    | some dsn, none => .ok (dsn, false)
    | none, some path => .ok ("sqlite://" ++ path, true)
    | some _, some _ => .error (.conflict .dsnAndPath)
    | none, none => .error (.badSetting .noSource)
  let params ← (c.params.getD []).mapM (sqliteParameter env)
  -- A file that is named by its path is created on first use.
  let params :=
    if fromPath && !params.any (·.1 == "mode") then params ++ [("mode", "rwc")] else params
  return withParams dsn (sortedParams params)

/-! ### Servers -/

def defaultUrl (engine : Engine) : Url :=
  { scheme := (match engine with | .mysql => "mysql" | _ => "postgres").toList
    authority := some ⟨[], [], .name "localhost".toList, none⟩
    setOff := false
    path := []
    query := none
    fragment := none }

def withHost (host : Option String) (url : Url) : Except DsnError Url :=
  match host with
  | none => .ok url
  | some host => (url.setHost host.toList).mapError .malformed

def withPort (port : Option Nat) (url : Url) : Except DsnError Url :=
  match port with
  | none => .ok url
  | some n => orFail (.badSetting (.port n)) (url.setPort? n)

def withUser (user : Option String) (url : Url) : Except DsnError Url :=
  match user with
  | none => .ok url
  | some name => orFail (.badSetting (.user name)) (url.setUsername? name.toList)

def withPassword (env : Environment) (password : Option String) (url : Url) : Except DsnError Url :=
  match password with
  | none => .ok url
  | some password => do
    let password ← expanded env password
    orFail (.badSetting .password) (url.setPassword? password.toList)

/-- A path of slashes alone names no database. -/
def withDatabase (engine : Engine) (database : Option String) (url : Url) : Except DsnError Url :=
  match database with
  | some name => .ok (url.setPath name.toList)
  | none => if url.path.all (· = '/') then .error (.badSetting (.noDatabase engine)) else .ok url

def withQuery (env : Environment) (params : List (String × String)) (url : Url) :
    Except DsnError Url :=
  params.foldlM (fun url param => do
    let value ← expanded env param.2
    return url.appendPair (param.1.toList, value.toList)) url

def baseUrl (engine : Engine) : Option String → Except DsnError Url
  | some dsn => (Url.parse dsn.toList).mapError .malformed
  | none => .ok (defaultUrl engine)

def withFields (env : Environment) (c : ConnectionSettings) (engine : Engine) (url : Url) :
    Except DsnError Url := do
  let url ← withHost c.host url
  let url ← withPort c.port url
  let url ← withUser c.user url
  let url ← withPassword env c.password url
  let url ← withDatabase engine c.database url
  withQuery env (sortedParams (c.params.getD [])) url

def serverDsn (env : Environment) (c : ConnectionSettings) (engine : Engine)
    (base : Option String) :
    Except DsnError String := do
  if c.path.isSome then throw (.conflict .pathForServer)
  let url ← baseUrl engine base
  let url ← withFields env c engine url
  return String.ofList url.write

def resolve (env : Environment) (c : ConnectionSettings) : Except DsnError String := do
  let base ← c.dsn.mapM (expanded env)
  let engine ← engineOf c.engine base
  match engine with
  | .sqlite => sqliteDsn env c base
  | .postgres | .mysql => serverDsn env c engine base

end QueryMapping.Dsn
