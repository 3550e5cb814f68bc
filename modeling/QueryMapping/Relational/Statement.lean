import QueryMapping.Relational.Expr

/-! The statements that the engine runs, as they are written: names are not yet looked up. -/

namespace QueryMapping.Relational

/-- How a name is quoted. One in double quotes that names nothing is a text, and only one without
quotes can be a truth value. -/
inductive Quoting where
  | plain
  | double
  | other
deriving DecidableEq, Repr

structure ColumnName where
  qualifiers : List String
  column : String
  quoting : Quoting
deriving DecidableEq, Repr

structure RelationName where
  schema? : Option String
  relation : String
deriving DecidableEq, Repr

structure Source where
  name : RelationName
  newName? : Option String
deriving DecidableEq, Repr

/-- What a select list has at one place. An expression's column is named as it is written, unless it
is given a name. -/
inductive Item where
  | all (relation? : Option String)
  | value (e : Expr ColumnName) (newName? : Option String) (written : String)
deriving DecidableEq, Repr

structure OrderTerm (ν : Type) where
  value : Expr ν
  descending : Bool
deriving DecidableEq, Repr

structure ColumnDef where
  name : String
  declaration : String
  isKey : Bool
  isUnique : Bool
  notNull : Bool
deriving DecidableEq, Repr

inductive Statement where
  /-- The definition is written from the relation's name to the end. -/
  | createTable (name : RelationName) (ifMissing : Bool) (columns : List ColumnDef)
      (definition : String)
  | dropTable (name : RelationName) (ifExists : Bool)
  /-- Without names, values are given for all columns in their order. -/
  | insert (name : RelationName) (columns : Option (List String))
      (rows : List (List (Expr ColumnName)))
  | update (source : Source) (changes : List (String × Expr ColumnName))
      (condition? : Option (Expr ColumnName))
  | delete (source : Source) (condition? : Option (Expr ColumnName))
  | select (items : List Item) (source? : Option Source) (condition? : Option (Expr ColumnName))
      (order : List (OrderTerm ColumnName))
deriving DecidableEq, Repr

end QueryMapping.Relational
