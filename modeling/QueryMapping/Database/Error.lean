import QueryMapping.Conversion
import QueryMapping.Dsn.Basic
import QueryMapping.Settings.Node
import QueryMapping.Strategy.Basic

/-! What can go wrong between settings and the materialized result of a statement. -/

namespace QueryMapping

structure BackendError where
  reason : String
deriving DecidableEq, Repr

inductive DatabaseError where
  | dsn (e : DsnError)
  | unavailable (driver : String)
  | missingParameter (name : String)
  | bind (typeName : String)
  /-- A statement of a script, by its number in the script, counted from one, and why it failed. -/
  | script (index : Nat) (statement : String) (cause : BackendError)
  | settings (e : SettingsError)
  | backend (e : BackendError)
  | materialize (e : MaterializeError)
  | conversion (e : ConversionError)
  | file (path : String)
deriving DecidableEq, Repr

namespace DatabaseError

def message : DatabaseError → String
  | .dsn e => e.message
  | .unavailable driver => "backend not compiled in: " ++ driver
  | .missingParameter name => "no value bound for ':" ++ name ++ "'"
  | .bind typeName => "cannot bind parameter: " ++ typeName
  | .script index statement _ =>
    "script statement #" ++ toString index ++ " failed: " ++ statement
  | .settings e => "configuration: " ++ e.message
  | .backend e => e.reason
  | .materialize e => e.message
  | .conversion e => e.message
  | .file path => path

end DatabaseError

end QueryMapping
