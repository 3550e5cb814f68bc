import QueryMapping.Cursor
import QueryMapping.Hub

/-! Materialization strategies. An extractor reads a whole cursor and yields one value; a row mapper
yields one value for each row, and is driven over the cursor by `RowMapper.mapAll`. -/

namespace QueryMapping

/-- What a strategy is registered under: a logical name, or the name of its own type. -/
inductive StrategyKey where
  | named (name : String)
  | ofType (typeName : String)
deriving DecidableEq, Repr

namespace StrategyKey

def display : StrategyKey → String
  | .named name => "name '" ++ name ++ "'"
  | .ofType typeName => "type " ++ typeName

end StrategyKey

inductive MaterializeError where
  | notFound (key : StrategyKey)
  | typeMismatch (key : StrategyKey) (registered requested : String)
  | duplicateKey (key : StrategyKey)
  | noStrategy (typeName : String)
  | extractorReferenced (key : StrategyKey)
  | emptyResult
  | cursor (e : CursorError)
  | component (e : HubError)
  | strategy (reason : String)
deriving DecidableEq, Repr

namespace MaterializeError

def message : MaterializeError → String
  | .notFound key => "no materializer registered under " ++ key.display
  | .typeMismatch key registered requested =>
    "materializer " ++ key.display ++ " produces " ++ registered ++ ", requested " ++ requested
  | .duplicateKey key => "materializer " ++ key.display ++ " is already registered"
  | .noStrategy typeName => "no materialization strategy for query returning " ++ typeName
  | .extractorReferenced key =>
    "query method references extractor " ++ key.display ++
      ", which yields the whole result, not rows"
  | .emptyResult => "extractor expected at least one row"
  | .cursor e => e.message
  | .component e => e.message
  | .strategy reason => "materializer failed: " ++ reason

end MaterializeError

/-- Reads a cursor and leaves it where reading stopped. -/
abbrev Extractor (α : Type) := Cursor → Except MaterializeError α × Cursor

/-- Maps a row and its number, counted from zero. -/
abbrev RowMapper (α : Type) := Row → Nat → Except MaterializeError α

namespace RowMapper

variable {α : Type}

def mapFrom (m : RowMapper α) (done : Array α) (c : Cursor) :
    Except MaterializeError (List α) × Cursor :=
  match _h : c.next with
  | (.error e, c') => (.error (.cursor e), c')
  | (.ok none, c') => (.ok done.toList, c')
  | (.ok (some row), c') =>
    match m row done.size with
    | .error e => (.error e, c')
    | .ok a => mapFrom m (done.push a) c'
termination_by c.unread.length
decreasing_by exact Cursor.unread_lt_of_next _h

def mapAll (m : RowMapper α) : Extractor (List α) := mapFrom m #[]

end RowMapper

inductive Shape where
  | extractor
  | rowMapper
deriving DecidableEq, Repr

namespace Shape

def display : Shape → String
  | .extractor => "Extractor"
  | .rowMapper => "RowMapper"

end Shape

inductive Materialized (α : Type) where
  | single (a : α)
  | rows (as : List α)
deriving DecidableEq, Repr

namespace Materialized

variable {α : Type}

def length : Materialized α → Nat
  | .single _ => 1
  | .rows as => as.length

/-- The value of an extractor, or a row mapper's first one. -/
def intoSingle : Materialized α → Except MaterializeError α
  | .single a => .ok a
  | .rows (a :: _) => .ok a
  | .rows [] => .error .emptyResult

def intoRows : Materialized α → List α
  | .single a => [a]
  | .rows as => as

end Materialized

inductive Materializer (α : Type) where
  | extract (e : Extractor α)
  | mapRows (m : RowMapper α)

namespace Materializer

variable {α : Type}

def shape : Materializer α → Shape
  | .extract _ => .extractor
  | .mapRows _ => .rowMapper

def display (m : Materializer α) : String := "Materializer(" ++ m.shape.display ++ ")"

def materialize (m : Materializer α) (c : Cursor) :
    Except MaterializeError (Materialized α) × Cursor :=
  match m with
  | .extract e => ((e c).1.map .single, (e c).2)
  | .mapRows f => ((f.mapAll c).1.map .rows, (f.mapAll c).2)

end Materializer

end QueryMapping
