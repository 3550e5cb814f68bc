import QueryMapping.Relational.Store

/-! Selections: the columns of a result, and its rows in order. -/

namespace QueryMapping.Relational

/-- A column of a result. One that is not a relation's own column has no declared type. -/
structure ResultColumn where
  name : String
  type? : Option ColumnType
deriving DecidableEq, Repr

structure ResultSet where
  columns : List ResultColumn
  rows : List (List Datum)
deriving DecidableEq, Repr

structure ResultItem where
  column : ResultColumn
  value : PlacedExpr
  newName? : Option String
deriving DecidableEq, Repr

structure Selection where
  scope : Scope
  items : List ResultItem
  condition? : Option PlacedExpr
  order : List (OrderTerm Place)

namespace Selection

def columnAt (s : Scope) : Place → ResultColumn
  | .number => ⟨"rowid", some .integer⟩
  | .column index =>
    s.relation.columns[index]?.elim ⟨"", none⟩ fun c => ⟨c.name, c.type?⟩

/-- The column of an expression, which is named as it is written unless it is a place. -/
def columnOf (s : Scope) (written : String) : PlacedExpr → ResultColumn
  | .name p => columnAt s p
  | _ => ⟨written, none⟩

/-- All columns of the relation. Each goes by its own name as by a new one. -/
def everyColumn (s : Scope) : List ResultItem :=
  (List.range s.relation.columns.length).map fun i =>
    ⟨columnAt s (.column i), .name (.column i), some (columnAt s (.column i)).name⟩

def expanded (s : Scope) : Item → Except SqlError (List ResultItem)
  | .all none => if s.name?.isSome then .ok (everyColumn s) else .error .malformed
  | .all (some relation) =>
    if s.isQualifiedBy [relation] then .ok (everyColumn s) else .error (.noSuchTable relation)
  | .value e newName? written => do
    let e ← s.resolve [] true e
    let column := columnOf s written e
    return [⟨{ column with name := newName?.getD column.name }, e, newName?⟩]

def newNames (items : List ResultItem) : Scope.NewNames :=
  items.filterMap fun item => item.newName?.map fun name => (name, item.value)

/-- What rows are ordered by: an item by its new name or its number, or else an expression. -/
def ordering (s : Scope) (items : List ResultItem) :
    Expr ColumnName → Except SqlError PlacedExpr
  | .name n =>
    match if n.qualifiers.isEmpty then Scope.newNamed? (newNames items) n.column else none with
    | some e => .ok e
    | none => s.resolve [] false (.name n)
  | .constant (.int n) =>
    if Nat.pow 2 31 ≤ n.toInt.natAbs then .ok (.constant (.int n))
    else if n < 1 then .error .orderRange
    else
      match items[n.toInt.toNat - 1]? with
      | some item => .ok item.value
      | none => .error .orderRange
  | e => s.resolve (newNames items) (items.any (·.value.counts)) e

def prepare (store : Store) (items : List Item) (source? : Option Source)
    (condition? : Option (Expr ColumnName)) (order : List (OrderTerm ColumnName)) :
    Except SqlError Selection := do
  let scope ← source?.elim (.ok .unit) store.scope
  let items ← Relation.limited (← items.mapM (expanded scope)).flatten
  let condition? ← Store.resolveCondition scope (newNames items) condition?
  let order ← (← Relation.limited order).mapM fun t =>
    return ⟨← ordering scope items t.value, t.descending⟩
  return ⟨scope, items, condition?, order⟩

def columns (s : Selection) : List ResultColumn := s.items.map (·.column)

def isCounting (s : Selection) : Bool := s.items.any (·.value.counts)

def demand (s : Selection) : Demand where
  scope := s.scope
  conditions := s.condition?.elim [] Expr.conjuncts
  used := (s.items.map (·.value) ++ s.condition?.toList ++ s.order.map (·.value)).flatMap Expr.names
  order := if s.isCounting then [] else s.order
  width := s.items.length
  isReading := true

def precedes (env : Expr.Environment Place (Option Row)) (a b : Row) :
    List (OrderTerm Place) → Bool
  | [] => true
  | t :: rest =>
    let c := (t.value.eval env (some a)).compare (t.value.eval env (some b))
    match if t.descending then c.swap else c with
    | .lt => true
    | .gt => false
    | .eq => precedes env a b rest

/-- The rows of the result. A count makes one row of them all, in which places have the values of
the first. -/
def rows (s : Selection) (args : Array Datum) : List (List Datum) :=
  let found := Store.selected s.demand args s.condition?
  let env := s.scope.environment args found
  let result (row? : Option Row) : List Datum := s.items.map fun item => item.value.eval env row?
  if s.isCounting then [result found.head?]
  else (found.mergeSort fun a b => precedes env a b s.order).map fun row => result (some row)

end Selection

end QueryMapping.Relational
