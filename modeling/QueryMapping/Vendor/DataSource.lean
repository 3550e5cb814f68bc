import QueryMapping.Database.Populate
import QueryMapping.Text.Quoted
import QueryMapping.Vendor.Error

/-! Where a started instance is reached, and how its schema scripts are run. -/

namespace QueryMapping

/-- The url is the vendor's own and has no password in it. The data source name, present for vendors
with a driver, may hold credentials, and is kept out of what is shown, as the password is. -/
structure DataSource where
  vendor : Vendor
  url : String
  username : String
  password : String
  driverDsn : Option String
deriving DecidableEq, Repr

namespace DataSource

def dsn (d : DataSource) : Except LaunchError String :=
  match d.driverDsn with
  | some dsn => .ok dsn
  | none => .error (.noDriver d.vendor)

def hidden : String := "SecretBox<str>([REDACTED])"

def display (d : DataSource) : String :=
  let shownDsn := d.driverDsn.elim "None" fun _ => "Some(" ++ hidden ++ ")"
  "DataSource \x7b vendor: " ++ d.vendor.display ++ ", url: " ++ Text.quoted d.url ++
    ", username: " ++ Text.quoted d.username ++ ", password: " ++ hidden ++ ", sqlx_dsn: " ++
    shownDsn ++ " \x7d"

end DataSource

structure ScriptSettings where
  vendor : Vendor
  ignoreFailedDrops : Bool
deriving DecidableEq, Repr

namespace ScriptSettings

def ofVendor (v : Vendor) : ScriptSettings := ⟨v, v.dropsFirst⟩

def customize (s : ScriptSettings) (p : Populator) : Populator :=
  { p with ignoreFailedDrops := s.ignoreFailedDrops }

/-- A path below a directory; an absolute one stands for itself. -/
def joinPath (dir path : String) : String :=
  if dir.isEmpty || path.startsWith "/" then path
  else if dir.endsWith "/" then dir ++ path
  else dir ++ "/" ++ path

def scriptName (s : ScriptSettings) (test : String) : String :=
  test ++ "-" ++ s.vendor.name ++ ".sql"

def scriptPath (s : ScriptSettings) (dir test : String) : String :=
  joinPath dir (s.scriptName test)

end ScriptSettings

end QueryMapping
