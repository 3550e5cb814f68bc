import QueryMapping.Relational.Parse.Basic
import QueryMapping.Relational.Statement

/-! Reading expressions. Operators bind in four levels, from `or` to the comparisons by order, and
those of one level associate to the left. -/

namespace QueryMapping.Relational.Parser

abbrev NamedExpr := Expr ColumnName

structure Measured where
  expr : NamedExpr
  height : Nat

def largestHeight : Nat := 1000

def leaf (e : NamedExpr) : Measured := ⟨e, 1⟩

def combined (parts : List Measured) (e : NamedExpr) : Parser Measured :=
  let height := 1 + (parts.map (·.height)).foldl max 0
  if height ≤ largestHeight then return ⟨e, height⟩ else failure

def qualified (first : String) : Parser (List String) := do
  return first :: (← many (do symbol "."; name))

/-- A column's name whose first part has been read. Each further part counts like an operator. -/
def columnFrom (first : String) (quoting : Quoting) : Parser Measured := do
  match ← qualified first with
  | [column] => return ⟨.name ⟨[], column, quoting⟩, 1⟩
  | [relation, column] => return ⟨.name ⟨[relation], column, .other⟩, 2⟩
  | [schema, relation, column] => return ⟨.name ⟨[schema, relation], column, .other⟩, 3⟩
  | _ => failure

def countOf (inner : Parser Measured) : Parser Measured := between do
  if ← accepts (symbol "*") then return leaf .countRows
  else
    match ← optional? inner with
    | some e => combined [e] (.count e.expr)
    | none => return leaf .countRows

def ofWord (inner : Parser Measured) (w : String) : Parser Measured := do
  if Keyword.isAmong ["null"] w then return leaf (.constant .null)
  else if Keyword.isAmong ["count"] w then
    match ← optional? (countOf inner) with
    | some e => return e
    | none => columnFrom w .plain
  else if Keyword.isColumnName w then columnFrom w .plain
  else failure

/-- A text, which may also be the first part of a column's name. -/
def ofText (s : String) : Parser Measured := do
  let e ← columnFrom s .other
  match e.expr with
  | .name ⟨[], _, _⟩ => return leaf (.constant (.text s))
  | _ => return e

/-- A number after its sign, which counts as an operator. -/
def signed (negative : Bool) : Parser Measured := do
  match (← next).kind with
  | .number n => return ⟨.constant (Datum.ofNumeral n negative), 2⟩
  | .bits n =>
    if !negative then return ⟨.constant (.int n), 2⟩
    else if n = Int64.minValue then failure
    else return ⟨.constant (.int (-n)), 2⟩
  | _ => failure

def operand (inner negated : Parser Measured) : Parser Measured := do
  if ← accepts (keyword "not") then
    let e ← negated
    combined [e] (.not e.expr)
  else
    match (← next).kind with
    | .symbol "(" => do
      let e ← inner
      symbol ")"
      return e
    | .symbol "-" => signed true
    | .symbol "+" => signed false
    | .word w => ofWord inner w
    | .name s inDoubleQuotes => columnFrom s (if inDoubleQuotes then .double else .other)
    | .text s => ofText s
    | .blob bs => return leaf (.constant (.blob bs))
    | .number n => return leaf (.constant (Datum.ofNumeral n false))
    | .bits n => return leaf (.constant (.int n))
    | .parameter _ index => return leaf (.parameter index)
    | _ => failure

def nullTest : Parser Bool := do
  if ← accepts (keyword "isnull" <|> keywords ["is", "null"]) then return false
  else
    keyword "notnull" <|> keywords ["not", "null"] <|> keywords ["is", "not", "null"]
    return true

def comparedBy (symbols : List (String × Comparison)) (left : Measured)
    (right : Parser Measured) : Parser Measured := do
  match (← next).kind with
  | .symbol s =>
    match symbols.lookup s with
    | some c =>
      let right ← right
      combined [left, right] (.comparison c left.expr right.expr)
    | none => failure
  | _ => failure

def isZero (e : Measured) : Bool := e.expr = .constant (.int 0) && e.height = 1

/-- Both of two conditions. Beside a zero it does not matter what the other one is, or names. -/
def both (left right : Measured) : Parser Measured :=
  if isZero left || isZero right then return leaf (.constant (.int 0))
  else combined [left, right] (.and left.expr right.expr)

def operation (level : Nat) (left : Measured) (right : Parser Measured) : Parser Measured :=
  match level with
  | 0 => do
    keyword "or"
    let right ← right
    combined [left, right] (.or left.expr right.expr)
  | 1 => do
    keyword "and"
    both left (← right)
  | 2 => comparedBy [("=", .eq), ("<>", .ne)] left right <|> do
    combined [left] (if ← nullTest then .notNull left.expr else .isNull left.expr)
  | _ => comparedBy [("<", .lt), ("<=", .le), (">", .gt), (">=", .ge)] left right

mutual

def exprFrom (level : Nat) : Nat → Parser Measured
  | 0 => failure
  | fuel + 1 => do
    if level < 4 then operationsFrom level (← exprFrom (level + 1) fuel) fuel
    else operand (exprFrom 0 fuel) (exprFrom 2 fuel)

def operationsFrom (level : Nat) (left : Measured) : Nat → Parser Measured
  | 0 => failure
  | fuel + 1 => do
    match ← optional? (operation level left (exprFrom (level + 1) fuel)) with
    | some e => operationsFrom level e fuel
    | none => return left

end

/-- An expression. Between two tokens taken no more than six steps are made. -/
def expr : Parser NamedExpr := do return (← exprFrom 0 (6 * ((← read) + 1))).expr

end QueryMapping.Relational.Parser
