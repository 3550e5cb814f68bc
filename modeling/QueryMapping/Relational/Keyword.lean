import QueryMapping.Text.Ascii

/-! The words of the engine's language. Most of them are names wherever the grammar has no other use
for them, and some never are. -/

namespace QueryMapping.Relational.Keyword

/-- Words that are names only in quotes. -/
def reserved : List String :=
  ["add", "all", "alter", "and", "as", "autoincrement", "between", "case", "check", "collate",
    "commit", "constraint", "create", "default", "deferrable", "delete", "distinct", "drop", "else",
    "escape", "except", "exists", "foreign", "from", "group", "having", "in", "index", "insert",
    "intersect", "into", "is", "isnull", "join", "limit", "not", "nothing", "notnull", "null", "on",
    "or", "order", "primary", "references", "returning", "select", "set", "table", "then", "to",
    "transaction", "union", "unique", "update", "using", "values", "when", "where"]

/-- Words that join relations. They are names, but neither types nor new names without `as`. -/
def joining : List String :=
  ["cross", "full", "indexed", "inner", "left", "natural", "outer", "right"]

/-- Words that an expression of a kind of its own begins with, so that they are no columns. -/
def leading : List String :=
  ["cast", "current_date", "current_time", "current_timestamp", "raise"]

/-- Words that stand between two expressions, so that after one they need `as` to be a new name. -/
def infixed : List String := ["glob", "like", "match", "regexp"]

def isAmong (words : List String) (w : String) : Bool :=
  words.any fun word => Text.sameFolded word.toList w.toList

def isName (w : String) : Bool := !isAmong reserved w

def isPlainName (w : String) : Bool := isName w && !isAmong joining w

def isColumnName (w : String) : Bool := isName w && !isAmong leading w

def isNewName (w : String) : Bool := isPlainName w && !isAmong infixed w

end QueryMapping.Relational.Keyword
