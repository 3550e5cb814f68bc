import QueryMapping.Relational.Relation

/-! The catalog of a store: a relation that has an entry for every relation of the store and for
every index, and that can be read like the others. Each entry has a page of its own, as long as none
outgrows it, and pages that are given up are used again. -/

namespace QueryMapping.Relational

structure Catalog where
  entries : Relation
  /-- The pages that no entry has any more, in the order in which they were given up. -/
  freePages : List Nat
deriving DecidableEq, Repr

namespace Catalog

def columns : List RelationColumn :=
  [⟨"type", "text", false⟩, ⟨"name", "text", false⟩, ⟨"tbl_name", "text", false⟩,
    ⟨"rootpage", "int", false⟩, ⟨"sql", "text", false⟩]

def empty : Catalog := ⟨⟨columns, none, [], []⟩, []⟩

/-! ### Names -/

def names : List String := ["sqlite_master", "sqlite_schema"]

/-- The names of the catalog of relations that only their connection sees. There are none of
these. -/
def temporaryNames : List String := ["sqlite_temp_master", "sqlite_temp_schema"]

def isNamed (n : RelationName) : Bool :=
  n.schema?.all (sameName "main") && names.any (sameName n.relation)

def isTemporaryNamed (n : RelationName) : Bool :=
  match n.schema? with
  | none => temporaryNames.any (sameName n.relation)
  | some schema => sameName schema "temp" && (names ++ temporaryNames).any (sameName n.relation)

def relation? (c : Catalog) (n : RelationName) : Option Relation :=
  if isNamed n then some c.entries
  else if isTemporaryNamed n then some empty.entries
  else none

/-! ### Pages -/

def page (entry : Row) : Nat := (entry.valueAt 3).toInteger.toNat

def pageCount (c : Catalog) : Nat := 1 + c.entries.rows.length + c.freePages.length

/-- The page of a new entry, and the pages that stay free. The page that was given up first is the
last to be used again, and of the others the smallest is the first. -/
def newPage (c : Catalog) : Nat × List Nat :=
  match c.freePages with
  | [] => (c.pageCount + 1, [])
  | first :: rest =>
    match rest.min? with
    | none => (first, [])
    | some page => (page, first :: rest.erase page)

/-! ### Entries -/

def add (c : Catalog) (type name relation : String) (sql? : Option String) : Catalog :=
  let (page, freePages) := c.newPage
  let entry := c.entries.row c.entries.nextNumber
    [.text type, .text name, .text relation, .int (.ofNat page), sql?.elim .null .text]
  ⟨{ c.entries with rows := Relation.put entry c.entries.rows }, freePages⟩

/-- Adds a relation, whose definition begins with its name, and then its indexes. -/
def addRelation (c : Catalog) (name definition : String) (columns : List ColumnDef) : Catalog :=
  let indexes := columns.countP fun c => c.isUnique || (c.isKey && !Relation.numbersRows c)
  (List.range indexes).foldl (fun c i =>
      c.add "index" ("sqlite_autoindex_" ++ name ++ "_" ++ toString (i + 1)) name none)
    (c.add "table" name name (some ("CREATE TABLE " ++ definition)))

def isOf (relation : String) (entry : Row) : Bool :=
  match entry.valueAt 2 with
  | .text name => sameName name relation
  | _ => false

/-- Removes a relation and its indexes. They give their pages up from the largest to the
smallest. -/
def removeRelation (c : Catalog) (relation : String) : Catalog :=
  let (removed, kept) := c.entries.rows.partition (isOf relation)
  ⟨{ c.entries with rows := kept },
    c.freePages ++ (removed.map page).mergeSort (fun a b => decide (b ≤ a))⟩

end Catalog

end QueryMapping.Relational
