import QueryMapping.Relational.Error
import QueryMapping.Relational.Statement

/-! Relations: columns, rows by their numbers, and the constraints that a new row has to meet. -/

namespace QueryMapping.Relational

/-- Names are the same if they differ only in the case of letters A to Z. -/
def sameName (a b : String) : Bool := Text.sameFolded a.toList b.toList

structure RelationColumn where
  name : String
  declaration : String
  notNull : Bool
deriving DecidableEq, Repr

structure Row where
  number : Int64
  values : List Datum
deriving DecidableEq, Repr

structure Relation where
  columns : List RelationColumn
  /-- The column whose values are the numbers of the rows. -/
  key? : Option Nat
  /-- The other columns that have no value twice, each with an index, the last one declared
  first. -/
  indexes : List Nat
  /-- The rows by their numbers, the largest first, where new rows come. -/
  rows : List Row
deriving DecidableEq, Repr

namespace RelationColumn

def affinity (c : RelationColumn) : Affinity := .ofDeclaration c.declaration

def type? (c : RelationColumn) : Option ColumnType := ColumnType.ofDeclaration? c.declaration

end RelationColumn

namespace Row

def valueAt (row : Row) (index : Nat) : Datum := row.values[index]?.getD .null

end Row

namespace Relation

/-- Only a key of this very type is the number of its row. -/
def numbersRows (c : ColumnDef) : Bool := c.isKey && sameName c.declaration "integer"

def largestWidth : Nat := 2000

def limited {α : Type} (xs : List α) : Except SqlError (List α) :=
  if xs.length ≤ largestWidth then .ok xs else .error .tooManyColumns

/-- An empty relation, which has each column name once and at most one key. -/
def ofColumns (columns : List ColumnDef) : Except SqlError Relation :=
  let names := columns.map fun c => c.name.toList.map Char.toLower
  if largestWidth < columns.length then .error .tooManyColumns
  else if names.eraseDups.length ≠ names.length then .error .duplicateColumn
  else if 1 < (columns.filter (·.isKey)).length then .error .severalKeys
  else
    let indexed := columns.zipIdx.filter fun (c, _) => (c.isKey || c.isUnique) && !numbersRows c
    .ok ⟨columns.map fun c => ⟨c.name, c.declaration, c.notNull⟩, columns.findIdx? numbersRows,
      (indexed.map Prod.snd).reverse, []⟩

def unit : Relation := ⟨[], none, [], [⟨0, []⟩]⟩

def indexOf? (r : Relation) (column : String) : Option Nat :=
  r.columns.findIdx? fun c => sameName c.name column

/-- One more than the largest number; the first row gets one. After the largest integer the smallest
positive number that is free is taken. -/
def nextNumber (r : Relation) : Int64 :=
  match r.rows with
  | [] => 1
  | last :: _ =>
    if last.number < Int64.maxValue then last.number + 1
    else
      let numbers := r.rows.map (·.number)
      let free :=
        (List.range (numbers.length + 1)).find? fun n => !numbers.contains (.ofNat (n + 1))
      .ofNat (free.getD numbers.length + 1)

def asNumber (d : Datum) : Except SqlError Int64 :=
  match d.withNumber.withInteger with
  | .int n => .ok n
  | _ => .error .keyType

def row (r : Relation) (number : Int64) (values : List Datum) : Row :=
  let stored := r.columns.zipIdx.map fun (c, i) => (values[i]?.getD .null).stored c.affinity
  ⟨number, r.key?.elim stored fun key => stored.set key (.int number)⟩

def missing? (r : Relation) (row : Row) : Option String :=
  (r.columns.zip row.values).findSome? fun (c, d) =>
    if c.notNull && d = .null then some c.name else none

/-- The name of the key; one that is no column has a name of its own. -/
def keyName (r : Relation) : String :=
  (do r.columns[← r.key?]?).elim "rowid" (·.name)

def hasNumber (rows : List Row) (n : Int64) : Bool :=
  (rows.dropWhile (n < ·.number)).head?.any (·.number = n)

def duplicate? (r : Relation) (others : List Row) (row : Row) : Option String :=
  if hasNumber others row.number then some r.keyName
  else
    r.indexes.findSome? fun index =>
      if others.any fun other => (other.valueAt index).compare? (row.valueAt index) = some .eq then
        (r.columns[index]?).map (·.name)
      else none

def put (row : Row) (others : List Row) : List Row :=
  others.takeWhile (row.number < ·.number) ++ row :: others.dropWhile (row.number < ·.number)

def addBeside (r : Relation) (others : List Row) (row : Row) : Except SqlError Relation :=
  match r.missing? row, r.duplicate? others row with
  | some column, _ => .error (.nullValue column)
  | none, some column => .error (.duplicateKey column)
  | none, none => .ok { r with rows := put row others }

def insert (r : Relation) (number : Datum) (values : List Datum) : Except SqlError Relation := do
  let n ← if number = .null then pure r.nextNumber else asNumber number
  r.addBeside r.rows (r.row n values)

def replace (r : Relation) (old : Row) (number : Datum) (values : List Datum) :
    Except SqlError Relation := do
  let n ← asNumber number
  r.addBeside (r.rows.filter (·.number ≠ old.number)) (r.row n values)

end Relation

end QueryMapping.Relational
