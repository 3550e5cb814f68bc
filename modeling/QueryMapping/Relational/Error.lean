/-! Why a statement fails. -/

namespace QueryMapping.Relational

inductive SqlError where
  | malformed
  | noSuchTable (table : String)
  | tableExists (table : String)
  | reservedName (table : String)
  | fixedTable (table : String)
  | noSuchColumn (column : String)
  | duplicateColumn
  | tooManyColumns
  | severalKeys
  | valueCount
  | misplacedCount
  | orderRange
  | parameterName (name : String)
  | nullValue (column : String)
  | duplicateKey (column : String)
  | keyType
  | readOnly
  | noDatabase
  | lostConnection
deriving DecidableEq, Repr

namespace SqlError

def message : SqlError → String
  | .malformed => "syntax error"
  | .noSuchTable table => "no such table: " ++ table
  | .tableExists table => "table " ++ table ++ " already exists"
  | .reservedName table => "object name reserved for internal use: " ++ table
  | .fixedTable table => "table " ++ table ++ " may not be modified"
  | .noSuchColumn column => "no such column: " ++ column
  | .duplicateColumn => "duplicate column name"
  | .tooManyColumns => "too many columns"
  | .severalKeys => "table has more than one primary key"
  | .valueCount => "wrong number of values"
  | .misplacedCount => "misuse of aggregate: count()"
  | .orderRange => "ORDER BY term out of range"
  | .parameterName name => "unsupported SQL parameter format: " ++ name
  | .nullValue column => "NOT NULL constraint failed: " ++ column
  | .duplicateKey column => "UNIQUE constraint failed: " ++ column
  | .keyType => "datatype mismatch"
  | .readOnly => "attempt to write a readonly database"
  | .noDatabase => "file is not a database"
  | .lostConnection => "the connection was lost"

/-- Whether a failure comes only when a statement runs that changes rows, so that it has changed
none. -/
def isRuntime : SqlError → Bool
  | .nullValue _ | .duplicateKey _ | .keyType | .readOnly => true
  | _ => false

end SqlError

end QueryMapping.Relational
