/-! The database engines, and what differs between their dialects of SQL: the placeholders of
statement parameters and the quotes of identifiers. -/

namespace QueryMapping

inductive Engine where
  | postgres
  | mysql
  | sqlite
deriving DecidableEq, Repr

namespace Engine

def display : Engine → String
  | .postgres => "Postgres"
  | .mysql => "MySql"
  | .sqlite => "Sqlite"

def name : Engine → String
  | .postgres => "postgres"
  | .mysql => "mysql"
  | .sqlite => "sqlite"

/-- The placeholder of the parameter with that number, counted from one. -/
def placeholder (e : Engine) (index : Nat) : String :=
  match e with
  | .postgres => "$" ++ toString index
  | .mysql | .sqlite => "?"

theorem toList_placeholder_postgres (index : Nat) :
    (postgres.placeholder index).toList = '$' :: Nat.toDigits 10 index := by
  simp [placeholder]

theorem toList_placeholder_of_ne {e : Engine} (he : e ≠ .postgres) (index : Nat) :
    (e.placeholder index).toList = ['?'] := by
  cases e with
  | postgres => exact absurd rfl he
  | mysql | sqlite => simp [placeholder]

def identifierQuote : Engine → Char
  | .mysql => '\x60'
  | .postgres | .sqlite => '"'

def doubled (quote : Char) : List Char → List Char
  | [] => []
  | c :: cs => if c = quote then quote :: quote :: doubled quote cs else c :: doubled quote cs

def quoteIdentifier (e : Engine) (identifier : String) : String :=
  let quote := e.identifierQuote
  String.ofList (quote :: doubled quote identifier.toList ++ [quote])

end Engine

end QueryMapping
