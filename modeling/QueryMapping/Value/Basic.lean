import QueryMapping.Value.Binary64
import QueryMapping.Text.Ascii

/-! Column values. What a driver cannot express as a plain scalar is carried with the vendor's
name of its type and its text. -/

namespace QueryMapping

/-- A value of a vendor's type: the type's name and the value's text, absent for SQL NULL. -/
structure TypedValue where
  typeName : String
  text : Option String
deriving DecidableEq, Repr

namespace TypedValue

/-- The document types are named `json` and `jsonb`, in any case. -/
def isJson (t : TypedValue) : Bool :=
  Text.sameFolded t.typeName.toList "json".toList ||
    Text.sameFolded t.typeName.toList "jsonb".toList

/-- The binary document type does not keep the text of a document. -/
def isBinary (t : TypedValue) : Bool := Text.sameFolded t.typeName.toList "jsonb".toList

def display (t : TypedValue) : String :=
  t.typeName ++ "(" ++ t.text.getD "null" ++ ")"

end TypedValue

inductive Value where
  | null
  | bool (b : Bool)
  | int (n : Int64)
  | float (x : Binary64)
  | text (s : String)
  | bytes (bs : List UInt8)
  | typed (t : TypedValue)
deriving DecidableEq, Repr

namespace Value

def isNull : Value → Bool
  | .null => true
  | .typed t => t.text.isNone
  | _ => false

def kind : Value → String
  | .null => "null"
  | .bool _ => "bool"
  | .int _ => "int"
  | .float _ => "float"
  | .text _ => "text"
  | .bytes _ => "bytes"
  | .typed _ => "typed"

end Value

end QueryMapping
