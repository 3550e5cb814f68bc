import QueryMapping.Relational.Parse.Expr

/-! Reading statements. -/

namespace QueryMapping.Relational

namespace Parser

def relationName : Parser RelationName := do
  let first ← name
  if ← accepts (symbol ".") then return ⟨some first, ← name⟩ else return ⟨none, first⟩

def newName : Parser String := do
  keyword "as"
  name

def target : Parser Source := return ⟨← relationName, ← optional? newName⟩

def source : Parser Source :=
  return ⟨← relationName, ← optional? (newName <|> nameBy Keyword.isPlainName)⟩

def condition? : Parser (Option NamedExpr) := do
  if ← accepts (keyword "where") then some <$> expr else return none

/-! ### Relations -/

def sign : Parser Unit := symbol "-" <|> symbol "+"

def size : Parser Unit := do
  let _ ← accepts sign
  match (← next).kind with
  | .number _ | .bits _ => return ()
  | _ => failure

def typeWords : Parser Unit := do
  let words ← many (nameBy Keyword.isPlainName)
  if !words.isEmpty && (← accepts (symbol "(")) then
    size
    let _ ← accepts (do symbol ","; size)
    symbol ")"

def constraint : Parser (ColumnDef → ColumnDef) := do
  if ← accepts (keywords ["primary", "key"]) then
    let _ ← accepts (keyword "asc")
    return ({ · with isKey := true })
  else if ← accepts (keywords ["not", "null"]) then return ({ · with notNull := true })
  else if ← accepts (keyword "unique") then return ({ · with isUnique := true })
  else
    keyword "null"
    return id

def columnDef : Parser ColumnDef := do
  let column ← name
  let (_, type) ← taken typeWords
  let constraints ← many constraint
  return constraints.foldl (fun c f => f c)
    ⟨column, String.ofList (written type), false, false, false⟩

def createTable : Parser Statement := do
  keywords ["create", "table"]
  let ifMissing ← accepts (keyword "if")
  if ifMissing then keywords ["not", "exists"]
  let schema? ← optional? (do
    let schema ← name
    symbol "."
    return schema)
  let ((relation, columns), definition) ← taken (do return (← name, ← between (list columnDef)))
  return .createTable ⟨schema?, relation⟩ ifMissing columns (String.ofList (written definition))

def dropTable : Parser Statement := do
  keywords ["drop", "table"]
  let ifExists ← accepts (keyword "if")
  if ifExists then keyword "exists"
  return .dropTable (← relationName) ifExists

/-! ### Rows -/

def insert : Parser Statement := do
  keywords ["insert", "into"]
  let into ← target
  let columns ← optional? (between (list name))
  keyword "values"
  return .insert into.name columns (← list (between (list expr)))

def assignment : Parser (String × NamedExpr) := do
  let column ← name
  symbol "="
  return (column, ← expr)

def update : Parser Statement := do
  keyword "update"
  let table ← target
  keyword "set"
  return .update table (← list assignment) (← condition?)

def delete : Parser Statement := do
  keywords ["delete", "from"]
  return .delete (← target) (← condition?)

/-! ### Selections -/

def starItem : Parser Item := do
  let relation? ← optional? (do
    let relation ← name
    symbol "."
    return relation)
  symbol "*"
  return .all relation?

/-- An expression is written up to the token after it, without white space at its end. -/
def valueItem : Parser Item := do
  let (e, tokens) ← taken expr
  let text := (written tokens ++ (← nextBlanks)).reverse.dropWhile Datum.isSpace
  return .value e (← optional? (newName <|> nameBy Keyword.isNewName))
    (String.ofList text.reverse)

def orderTerm : Parser (OrderTerm ColumnName) := do
  let e ← expr
  if ← accepts (keyword "desc") then return ⟨e, true⟩
  else
    let _ ← accepts (keyword "asc")
    return ⟨e, false⟩

def orderTerms : Parser (List (OrderTerm ColumnName)) := do
  if ← accepts (keywords ["order", "by"]) then list orderTerm else return []

def select : Parser Statement := do
  keyword "select"
  let items ← list (starItem <|> valueItem)
  let source? ← if ← accepts (keyword "from") then some <$> source else pure none
  return .select items source? (← condition?) (← orderTerms)

def statement : Parser Statement :=
  createTable <|> dropTable <|> insert <|> update <|> delete <|> select

end Parser

def Statement.ofTokens? (tokens : List Token) : Option Statement :=
  match Parser.statement tokens.length tokens with
  | some (statement, [_]) => some statement
  | _ => none

end QueryMapping.Relational
