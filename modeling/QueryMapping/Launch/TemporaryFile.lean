import QueryMapping.Launch.Basic

/-! Instances that are SQLite files, each in a temporary directory of its own. -/

namespace QueryMapping.TemporaryFile

def directory (number : Nat) : String := "/tmp/sqlite-" ++ toString number

def path (number : Nat) : String := directory number ++ "/test.db"

/-- The file is made when it is first opened. It has no users and no session for administration. -/
def source (number : Nat) : DataSource :=
  let url := "sqlite://" ++ path number
  ⟨.sqlite, url, "", "", some (url ++ "?mode=rwc")⟩

def launcher : Launcher := ⟨.sqlite, fun number => ⟨0, .ok (source number, none)⟩⟩

end QueryMapping.TemporaryFile
