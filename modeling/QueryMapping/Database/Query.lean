import QueryMapping.Database.Backend
import QueryMapping.Json.Valid
import QueryMapping.Sql.Parameter
import QueryMapping.Strategy.Method

/-! Queries: a statement is sent only after its strategy, its parameters and its values have been
found good, and its rows are then materialized. -/

namespace QueryMapping

/-- What is sent for a bound value. Documents have to be valid JSON, and are sent without the white
space around them; values of other vendors' types are sent as their text. -/
def boundValue : Value → Except DatabaseError Argument
  | .null => .ok .null
  | .bool b => .ok (.bool b)
  | .int n => .ok (.int n)
  | .float x => .ok (.float x)
  | .text s => .ok (.text s)
  | .bytes bs => .ok (.bytes bs)
  | .typed t =>
    match t.text with
    | none => .ok .null
    | some text =>
      if t.isJson then
        if Json.isValid text then .ok (.document t.isBinary (Json.stripped text))
        else .error (.bind t.typeName)
      else .ok (.text text)

structure PreparedStatement where
  sql : String
  arguments : List Argument
deriving DecidableEq, Repr

def prepare (e : Engine) (sql : String) (params : Params) :
    Except DatabaseError PreparedStatement := do
  let named := NamedSql.parse sql
  let values ← (named.values params).mapError .missingParameter
  let arguments ← values.mapM boundValue
  return ⟨named.render e, arguments⟩

structure QueryTemplate (τ : Type) [TypeFamily τ] where
  registry : Registry τ
  defaults : DefaultMappers τ

namespace QueryTemplate

variable {τ σ : Type} [TypeFamily τ]

def empty [DecidableEq τ] : QueryTemplate τ := ⟨Registry.empty, DefaultMappers.empty⟩

def send (b : Backend σ) (s : σ) (sql : String) (params : Params) :
    Except DatabaseError Answer × σ :=
  match prepare b.engine sql params with
  | .error e => (.error e, s)
  | .ok statement =>
    let (answer, s) := b.run s statement.sql statement.arguments
    (answer.mapError .backend, s)

def query {α : Type} (b : Backend σ) (s : σ) (sql : String) (params : Params)
    (m : Materializer α) : Except DatabaseError (Materialized α) × σ :=
  match send b s sql params with
  | (.error e, s) => (.error e, s)
  | (.ok answer, s) => ((m.materialize answer.cursor).1.mapError .materialize, s)

def queryResolved {α : Type} (b : Backend σ) (s : σ) (sql : String) (params : Params)
    (resolved : Except MaterializeError (Materializer α)) :
    Except DatabaseError (Materialized α) × σ :=
  match resolved with
  | .error e => (.error (.materialize e), s)
  | .ok m => query b s sql params m

def single {α : Type} (result : Except DatabaseError (Materialized α)) : Except DatabaseError α :=
  match result with
  | .error e => .error e
  | .ok m => m.intoSingle.mapError .materialize

variable [DecidableEq τ]

def queryWith (q : QueryTemplate τ) (b : Backend σ) (s : σ) (sql : String) (params : Params)
    (key : StrategyKey) (t : OutputType τ) : Except DatabaseError (Materialized t.Carrier) × σ :=
  queryResolved b s sql params (q.registry.resolve key t)

def queryForList (q : QueryTemplate τ) (b : Backend σ) (s : σ) (method : QueryMethod)
    (params : Params) (t : OutputType τ) : Except DatabaseError (List t.Carrier) × σ :=
  let (result, s) :=
    queryResolved b s method.sql params (q.defaults.resolveList q.registry method t)
  (single result, s)

def queryForObject (q : QueryTemplate τ) (b : Backend σ) (s : σ) (method : QueryMethod)
    (params : Params) (t : OutputType τ) : Except DatabaseError t.Carrier × σ :=
  let (result, s) := queryResolved b s method.sql params (method.resolveWhole q.registry t)
  (single result, s)

def execute (b : Backend σ) (s : σ) (sql : String) (params : Params) :
    Except DatabaseError Nat × σ :=
  let (answer, s) := send b s sql params
  (answer.map (·.affected), s)

end QueryTemplate

end QueryMapping
