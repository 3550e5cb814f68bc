import QueryMapping.Strategy.Registry

/-! Query methods and the choice of their strategy. A method's own references come first, and an
extractor before a row mapper; the default row mapper of the entity type is the last resort. -/

namespace QueryMapping

structure QueryMethod where
  sql : String
  extractor : Option StrategyKey
  rowMapper : Option StrategyKey
deriving DecidableEq, Repr

structure DefaultMapper (τ : Type) [TypeFamily τ] where
  entity : OutputType τ
  mapper : RowMapper entity.Carrier

structure DefaultMappers (τ : Type) [TypeFamily τ] where
  mappers : List (DefaultMapper τ)

namespace DefaultMappers

variable {τ : Type} [TypeFamily τ] [DecidableEq τ]

def empty : DefaultMappers τ := ⟨[]⟩

/-- A later mapper for an entity type takes the place of an earlier one. -/
def withMapper (d : DefaultMappers τ) (m : DefaultMapper τ) : DefaultMappers τ :=
  ⟨d.mappers.filter (·.entity ≠ m.entity) ++ [m]⟩

def find? (t : OutputType τ) : List (DefaultMapper τ) → Option (RowMapper t.Carrier)
  | [] => none
  | m :: ms => if h : m.entity = t then some (h ▸ m.mapper) else find? t ms

def mapperFor? (d : DefaultMappers τ) (t : OutputType τ) : Option (RowMapper t.Carrier) :=
  find? t d.mappers

def listExtractor (d : DefaultMappers τ) (t : OutputType τ) :
    Except MaterializeError (Materializer t.list.Carrier) :=
  match d.mapperFor? t with
  | some m => .ok (.extract m.mapAll)
  | none => .error (.noStrategy t.name)

def resolveRows (d : DefaultMappers τ) (r : Registry τ) (method : QueryMethod) (t : OutputType τ) :
    Except MaterializeError (Materializer t.Carrier) :=
  match method.extractor with
  | some key => .error (.extractorReferenced key)
  | none =>
    match method.rowMapper with
    | some key => r.resolve key t
    | none =>
      match d.mapperFor? t with
      | some m => .ok (.mapRows m)
      | none => .error (.noStrategy t.name)

/-- A strategy for rows as one that yields the list of them. -/
def collected {α : Type} : Materializer α → Extractor (List α)
  | .mapRows m => m.mapAll
  | .extract e => fun c => ((e c).1.map ([·]), (e c).2)

def resolveList (d : DefaultMappers τ) (r : Registry τ) (method : QueryMethod) (t : OutputType τ) :
    Except MaterializeError (Materializer t.list.Carrier) :=
  match method.extractor with
  | some key => r.resolve key t.list
  | none =>
    match d.resolveRows r method t with
    | .error e => .error e
    | .ok m => .ok (.extract (collected m))

end DefaultMappers

namespace QueryMethod

variable {τ : Type} [TypeFamily τ] [DecidableEq τ]

/-- The strategy for a method whose whole result is a `t`; there is no default for it. -/
def resolveWhole (method : QueryMethod) (r : Registry τ) (t : OutputType τ) :
    Except MaterializeError (Materializer t.Carrier) :=
  match method.extractor, method.rowMapper with
  | some key, _ => r.resolve key t
  | none, some key => r.resolve key t
  | none, none => .error (.noStrategy t.name)

end QueryMethod

end QueryMapping
