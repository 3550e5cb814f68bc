import QueryMapping.Database.Backend
import QueryMapping.Database.Fetched
import QueryMapping.Relational.Connection

/-! The relational engine as a backend. -/

namespace QueryMapping.Relational

namespace ResultColumn

def column (c : ResultColumn) : Column := ⟨c.name, c.type?.elim "NULL" (·.name)⟩

end ResultColumn

namespace ResultSet

def readAt (row : List Datum) (index : Nat) (column : Column) : Except CursorError Value :=
  match row[index]? with
  | some d => .ok (d.decode (ColumnType.named? column.typeName))
  | .none =>
    .error (.driver ("column index out of bounds: the len is " ++ toString row.length ++
      ", but the index is " ++ toString index))

def reader (columns : List ResultColumn) : RowReader (List Datum) :=
  ⟨fun _ => columns.map (·.column), readAt⟩

def cursor (r : ResultSet) : Cursor := (reader r.columns).cursor r.rows

end ResultSet

def answer (outcome : Except SqlError Progress) : Except BackendError Answer :=
  match outcome with
  | .ok p => .ok ⟨p.result.cursor, p.affected⟩
  | .error e => .error ⟨e.message⟩

/-- Giving a transaction up restores the store, but not what the connection knows of its
statements. -/
def backend : PooledBackend Connection where
  engine := .sqlite
  run c sql arguments :=
    let (outcome, c) := c.runText ⟨sql, some (arguments.map Datum.ofArgument).toArray⟩
    (answer outcome, c)
  runText c sql :=
    let (outcome, c) := c.runText ⟨sql, none⟩
    ((answer outcome).map (·.affected), c)
  undone began left := { left with store := began.store }
  opened := Connection.beside
  joined own last := if own.isShared then { own with store := last.store } else own
  lost? c := if c.isLost then some ⟨SqlError.lostConnection.message⟩ else none

end QueryMapping.Relational
