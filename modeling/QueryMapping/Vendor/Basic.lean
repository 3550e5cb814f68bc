import QueryMapping.Text.Ascii
import QueryMapping.Text.Blank

/-! The database vendors that tests run against. -/

namespace QueryMapping

inductive Vendor where
  | db2
  | oracle
  | postgres
  | sqlite
deriving DecidableEq, Repr

namespace Vendor

def all : List Vendor := [.db2, .oracle, .postgres, .sqlite]

def name : Vendor → String
  | .db2 => "db2"
  | .oracle => "oracle"
  | .postgres => "postgres"
  | .sqlite => "sqlite"

def display : Vendor → String
  | .db2 => "Db2"
  | .oracle => "Oracle"
  | .postgres => "Postgres"
  | .sqlite => "Sqlite"

/-- Names are read without regard to case and to white space around them. -/
def parse? (text : String) : Option Vendor :=
  all.find? fun v => Text.sameFolded v.name.toList (Text.trim text.toList)

def unknownMessage (text : String) : String :=
  "unknown vendor '" ++ text ++ "' (expected one of: " ++ ", ".intercalate (all.map name) ++ ")"

def hasDriver : Vendor → Bool
  | .postgres | .sqlite => true
  | .db2 | .oracle => false

/-- Whether the vendor's scripts begin by dropping what may not be there. -/
def dropsFirst : Vendor → Bool
  | .db2 | .oracle => true
  | .postgres | .sqlite => false

end Vendor

end QueryMapping
