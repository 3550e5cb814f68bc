import QueryMapping.Sql.Engine
import QueryMapping.Text.Blank
import QueryMapping.Text.Search
import QueryMapping.Url.Host

/-! Data source names: the engine that one names by its scheme, and the parts of an SQLite one. -/

namespace QueryMapping

namespace Dsn

inductive Conflict where
  | engines (configured named : Engine)
  | serverField (field : String)
  | dsnAndPath
  | pathForServer
deriving DecidableEq, Repr

inductive BadSetting where
  | noEngine
  | noSource
  | unsupportedParameter (key : String)
  | noDatabase (engine : Engine)
  | port (n : Nat)
  | user (name : String)
  | password
  | notSqlite (dsn : String)
deriving DecidableEq, Repr

end Dsn

inductive DsnError where
  | unknownScheme (dsn : String)
  | conflict (c : Dsn.Conflict)
  | badSetting (b : Dsn.BadSetting)
  | unsetVariable (name : String)
  | malformed (e : Url.UrlError)
deriving DecidableEq, Repr

namespace Dsn

def sqliteParameters : List String := ["mode", "cache", "immutable", "vfs"]

namespace Conflict

def message : Conflict → String
  | .engines configured named =>
    "engine '" ++ configured.display ++ "' does not match DSN scheme (" ++ named.display ++ ")"
  | .serverField field => "'" ++ field ++ "' cannot be used with SQLite"
  | .dsnAndPath => "set either 'dsn' or 'path' for SQLite, not both"
  | .pathForServer => "'path' is only valid for SQLite"

end Conflict

namespace BadSetting

def message : BadSetting → String
  | .noEngine => "either 'engine' or 'dsn' must be set"
  | .noSource => "SQLite needs 'dsn' or 'path'"
  | .unsupportedParameter key =>
    "unsupported SQLite parameter '" ++ key ++ "' (allowed: " ++
      ", ".intercalate sqliteParameters ++ ")"
  | .noDatabase engine => "dbname is required for " ++ engine.display ++ " connections"
  | .port n => "cannot set port " ++ toString n
  | .user name => "cannot set user '" ++ name ++ "'"
  | .password => "cannot set password"
  | .notSqlite dsn => "not a SQLite DSN: " ++ dsn

end BadSetting

end Dsn

namespace DsnError

def message : DsnError → String
  | .unknownScheme dsn => "unsupported DSN scheme: " ++ dsn
  | .conflict c => "conflicting connection settings: " ++ c.message
  | .badSetting b => "bad connection setting: " ++ b.message
  | .unsetVariable _ => "environment variable: environment variable not found"
  | .malformed e => "malformed DSN: " ++ e.message

end DsnError

namespace Dsn

def detect (dsn : String) : Except DsnError Engine :=
  match String.ofList ((Text.trimStart dsn.toList).takeWhile (· ≠ ':')) with
  | "postgres" | "postgresql" => .ok .postgres
  | "mysql" => .ok .mysql
  | "sqlite" => .ok .sqlite
  | _ => .error (.unknownScheme dsn)

def isMemory (dsn : String) : Bool :=
  "sqlite::memory:".toList.isPrefixOf (Text.trimStart dsn.toList) ||
    Text.occursIn "mode=memory".toList dsn.toList

def withoutStart (start cs : List Char) : List Char :=
  if start.isPrefixOf cs then cs.drop start.length else cs

def sqliteParts (dsn : String) : List Char × Option (List Char) :=
  let rest := withoutStart "//".toList (withoutStart "sqlite:".toList (Text.trimStart dsn.toList))
  match rest.span (· ≠ '?') with
  | (database, _ :: query) => (database, some query)
  | (database, []) => (database, none)

def sqlitePath (dsn : String) : String := String.ofList (sqliteParts dsn).1

end Dsn

end QueryMapping
