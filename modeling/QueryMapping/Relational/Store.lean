import QueryMapping.Relational.Access
import QueryMapping.Table

/-! A store of relations, and what the statements do to it that make, drop and fill them. One that
fails leaves the relations as they were. -/

namespace QueryMapping.Relational

structure Store where
  /-- The relations by their names in small letters. -/
  relations : Table String Relation
  catalog : Catalog
deriving DecidableEq, Repr

structure Change where
  store : Store
  rows : Nat
deriving DecidableEq, Repr

namespace Store

def empty : Store := ⟨[], .empty⟩

/-- The name that a relation is kept under; absent if it is in a schema that has no relations. -/
def key? (n : RelationName) : Option String :=
  if n.schema?.all (sameName "main") then some (String.ofList (n.relation.toList.map Char.toLower))
  else none

def relation? (s : Store) (n : RelationName) : Option Relation :=
  (s.catalog.relation? n).orElse fun _ => do s.relations.get? (← key? n)

def relation (s : Store) (n : RelationName) : Except SqlError Relation :=
  match s.relation? n with
  | some r => .ok r
  | none => .error (.noSuchTable n.relation)

def setRelation (s : Store) (n : RelationName) (r : Relation) : Store :=
  (key? n).elim s fun key => { s with relations := s.relations.set key r }

def changeable (s : Store) (n : RelationName) : Except SqlError Unit :=
  if (s.catalog.relation? n).isSome then .error (.fixedTable n.relation) else .ok ()

def scope (s : Store) (source : Source) : Except SqlError Scope :=
  return ⟨← s.relation source.name, some (source.newName?.getD source.name.relation)⟩

/-! ### Relations -/

def isReserved (name : String) : Bool := "sqlite_".toList.isPrefixOf (name.toList.map Char.toLower)

def createTable (s : Store) (n : RelationName) (ifMissing : Bool) (columns : List ColumnDef)
    (definition : String) : Except SqlError Store :=
  if (key? n).isNone then .error (.noSuchTable n.relation)
  else if isReserved n.relation then .error (.reservedName n.relation)
  else if (s.relation? n).isSome then
    if ifMissing then .ok s else .error (.tableExists n.relation)
  else (Relation.ofColumns columns).map fun r =>
    { s.setRelation n r with catalog := s.catalog.addRelation n.relation definition columns }

def dropTable (s : Store) (n : RelationName) (ifExists : Bool) : Except SqlError Store := do
  s.changeable n
  match key? n, s.relation? n with
  | some key, some _ => return ⟨s.relations.erase key, s.catalog.removeRelation n.relation⟩
  | _, _ => if ifExists then return s else throw (.noSuchTable n.relation)

/-! ### Rows -/

def placeOf (s : Scope) (column : String) : Except SqlError Place :=
  match s.ownPlace? column with
  | some place => .ok place
  | none => .error (.noSuchColumn column)

def given (values : List (Place × Datum)) (place : Place) : Option Datum := values.lookup place

def givenNumber (s : Scope) (values : List (Place × Datum)) : Option Datum :=
  (values.find? fun (p, _) => p = .number || p = s.numberPlace).map Prod.snd

/-- Adds rows. Columns that are given no value are null, and one that is given several has the
first. A row's number is the last that it is given. -/
def insert (s : Store) (args : Array Datum) (n : RelationName) (columns : Option (List String))
    (rows : List (List (Expr ColumnName))) : Except SqlError Change := do
  s.changeable n
  let scope ← s.scope ⟨n, none⟩
  let width := scope.relation.columns.length
  let places ←
    match columns with
    | some names => names.mapM (placeOf scope)
    | none => pure ((List.range width).map .column)
  let rows ← rows.mapM fun row =>
    if row.length = places.length then row.mapM (Scope.unit.resolve [] false)
    else .error .valueCount
  let places ← if rows.length ≤ 1 then pure places else Relation.limited places
  let r ← rows.foldlM (fun (r : Relation) row =>
    let values := places.zip (row.map (Expr.eval (Scope.unit.environment args []) none))
    r.insert ((givenNumber scope values.reverse).getD .null)
      ((List.range width).map fun i => (given values (.column i)).getD .null)) scope.relation
  return ⟨s.setRelation n r, rows.length⟩

def resolveCondition (s : Scope) (names : Scope.NewNames) (e? : Option (Expr ColumnName)) :
    Except SqlError (Option PlacedExpr) :=
  match e? with
  | none => .ok none
  | some e => some <$> s.resolve names false e

/-- Whether a condition holds in a row. No row is found by a number that is none, even if it
compares as equal to the number of one. -/
def selects (d : Demand) (args : Array Datum) (condition? : Option PlacedExpr) : Row → Bool :=
  let env := d.scope.environment args []
  if d.number?.all fun e => (Relation.asNumber (e.eval env none)).isOk then
    fun row => condition?.all (Expr.holds env (some row))
  else fun _ => false

def selected (d : Demand) (args : Array Datum) (condition? : Option PlacedExpr) : List Row :=
  d.rows.filter (selects d args condition?)

def demand (s : Scope) (condition? : Option PlacedExpr) (others : List PlacedExpr) : Demand where
  scope := s
  conditions := condition?.elim [] Expr.conjuncts
  used := (condition?.toList ++ others).flatMap Expr.names
  order := []
  width := 0
  isReading := false

/-- Changes rows one after another. A column that is given several values has the last. -/
def update (s : Store) (args : Array Datum) (source : Source)
    (changes : List (String × Expr ColumnName)) (condition? : Option (Expr ColumnName)) :
    Except SqlError Change := do
  s.changeable source.name
  let scope ← s.scope source
  let changes ← (← Relation.limited changes).mapM fun (column, e) =>
    return (← placeOf scope column, ← scope.resolve [] false e)
  let condition? ← resolveCondition scope [] condition?
  let rows := selected (demand scope condition? (changes.map Prod.snd)) args condition?
  let env := scope.environment args []
  let r ← rows.foldlM (fun (r : Relation) row =>
    let values := (changes.map fun (place, e) => (place, e.eval env (some row))).reverse
    r.replace row ((givenNumber scope values).getD (.int row.number))
      (row.values.zipIdx.map fun (d, i) => (given values (.column i)).getD d)) scope.relation
  return ⟨s.setRelation source.name r, rows.length⟩

def delete (s : Store) (args : Array Datum) (source : Source)
    (condition? : Option (Expr ColumnName)) : Except SqlError Change := do
  s.changeable source.name
  let scope ← s.scope source
  let condition? ← resolveCondition scope [] condition?
  let rows := scope.relation.rows
  let kept := rows.filter fun row => !selects (demand scope condition? []) args condition? row
  return ⟨s.setRelation source.name { scope.relation with rows := kept },
    rows.length - kept.length⟩

end Store

end QueryMapping.Relational
