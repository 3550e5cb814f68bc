import QueryMapping.Relational.Catalog

/-! Looking names up. In a statement on one relation a name is a column of it or the number of its
rows, and where nothing has the name it may be a new name, a text or a truth value. -/

namespace QueryMapping.Relational

inductive Place where
  | number
  | column (index : Nat)
deriving DecidableEq, Repr

abbrev PlacedExpr := Expr Place

structure Scope where
  relation : Relation
  name? : Option String

namespace Scope

def unit : Scope := ⟨.unit, none⟩

/-- The names that a row's number has, except where a column has them. -/
def numberNames : List String := ["rowid", "oid", "_rowid_"]

/-- Where rows are numbered by a column, their number is that column. -/
def numberPlace (s : Scope) : Place := s.relation.key?.elim .number .column

def ownPlace? (s : Scope) (column : String) : Option Place :=
  match s.relation.indexOf? column with
  | some index => some (.column index)
  | none =>
    if s.name?.isSome && numberNames.any (sameName column) then some s.numberPlace else none

/-- Whether the relation goes by a name; the catalog goes by each of its names if it does by one. -/
def isCalled (s : Scope) (name : String) : Bool :=
  s.name?.any fun own =>
    sameName own name || (Catalog.names.any (sameName own) && Catalog.names.any (sameName name))

def isQualifiedBy (s : Scope) : List String → Bool
  | [] => true
  | [relation] => s.isCalled relation
  | [schema, relation] => sameName schema "main" && s.isCalled relation
  | _ => false

/-- What a name is that nothing has: in double quotes a text, and without quotes a truth value. -/
def literal? (n : ColumnName) : Option Datum :=
  match n.quoting with
  | .double => some (.text n.column)
  | .plain =>
    if sameName n.column "true" then some (.int 1)
    else if sameName n.column "false" then some (.int 0)
    else none
  | .other => none

abbrev NewNames := List (String × PlacedExpr)

def newNamed? (names : NewNames) (name : String) : Option PlacedExpr :=
  (names.find? fun (n, _) => sameName n name).map Prod.snd

def lookUp (s : Scope) (names : NewNames) (n : ColumnName) : Except SqlError PlacedExpr :=
  match if s.isQualifiedBy n.qualifiers then s.ownPlace? n.column else none with
  | some place => .ok (.name place)
  | none =>
    if !n.qualifiers.isEmpty then .error (.noSuchColumn n.column)
    else
      match newNamed? names n.column, literal? n with
      | some e, _ => .ok e
      | none, some d => .ok (.constant d)
      | none, none => .error (.noSuchColumn n.column)

def resolve (s : Scope) (names : NewNames) (allowsCounts : Bool) :
    Expr ColumnName → Except SqlError PlacedExpr
  | .name n => do
    let e ← s.lookUp names n
    if e.counts && !allowsCounts then .error .misplacedCount else .ok e
  | .parameter index => .ok (.parameter index)
  | .constant d => .ok (.constant d)
  | .comparison c left right =>
    return .comparison c (← resolve s names allowsCounts left)
      (← resolve s names allowsCounts right)
  | .isNull e => return .isNull (← resolve s names allowsCounts e)
  | .notNull e => return .notNull (← resolve s names allowsCounts e)
  | .not e => return .not (← resolve s names allowsCounts e)
  | .and left right =>
    return .and (← resolve s names allowsCounts left) (← resolve s names allowsCounts right)
  | .or left right =>
    return .or (← resolve s names allowsCounts left) (← resolve s names allowsCounts right)
  | .countRows => if allowsCounts then .ok .countRows else .error .misplacedCount
  | .count e =>
    if allowsCounts then return .count (← resolve s names false e) else .error .misplacedCount

def affinity (s : Scope) : Place → Affinity
  | .number => .integer
  | .column index => s.relation.columns[index]?.elim .blob (·.affinity)

def value (row? : Option Row) : Place → Datum
  | .number => row?.elim .null fun row => .int row.number
  | .column index => row?.elim .null fun row => row.valueAt index

def environment (s : Scope) (args : Array Datum) (rows : List Row) :
    Expr.Environment Place (Option Row) :=
  ⟨args, s.affinity, value, rows.map some⟩

end Scope

end QueryMapping.Relational
